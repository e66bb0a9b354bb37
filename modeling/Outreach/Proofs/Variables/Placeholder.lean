import Outreach.Proofs.Text.Blank
import Outreach.Variables.Template

/-!
# The form of a placeholder

A placeholder is well-formed if blanks surround words with single points between them. A text
begins with a well-formed placeholder exactly if one can be read from it, and then with no other
(`Placeholder.read?_eq_some_iff`), since no character may stand both in a path and around it.
Inside a placeholder stands no opening brace, so two of them never overlap
(`Placeholder.StandsAt.disjoint`).
-/

namespace Outreach

/-! ## Characters -/

namespace Text

/-- A blank character does not belong to a word. -/
theorem not_isWordChar_of_isBlank {c : Char} (h : isBlank c = true) : isWordChar c = false := by
  have hpoints : ∀ point ∈ blankPoints, CharClass.memberFrom false point wordCharacters = false := by
    decide +kernel
  exact hpoints _ (isBlank_iff.mp h)

end Text

namespace Placeholder

open Text (isBlank isWordChar)

/-! ## Well-formed placeholders -/

/-- A row of one or more word characters. -/
structure IsWord (word : List Char) : Prop where
  ne_nil : word ≠ []
  isWordChar : ∀ c ∈ word, isWordChar c = true

/-- A path of words with single points between them, and blanks around it. -/
structure IsWellFormed (p : Placeholder) : Prop where
  before : ∀ c ∈ p.before, isBlank c = true
  path : ∃ words, words ≠ [] ∧ (∀ word ∈ words, IsWord word) ∧
    p.path = List.intercalate ['.'] words
  behind : ∀ c ∈ p.behind, isBlank c = true

theorem isPath_iff {path : List Char} : isPath path = true ↔
    ∃ words, words ≠ [] ∧ (∀ word ∈ words, IsWord word) ∧
      path = List.intercalate ['.'] words := by
  constructor
  · intro h
    refine ⟨Text.split '.' path, Text.split_ne_nil '.' path, fun word hword => ?_,
      (Text.intercalate_split '.' path).symm⟩
    rw [isPath, List.all_eq_true] at h
    have hboth := h word hword
    simp only [Bool.and_eq_true, Bool.not_eq_true', List.isEmpty_eq_false_iff,
      List.all_eq_true] at hboth
    exact ⟨hboth.1, hboth.2⟩
  · rintro ⟨words, hne, hwords, rfl⟩
    have hpoint : ∀ word ∈ words, '.' ∉ word := by
      intro word hword hmem
      exact absurd ((hwords word hword).isWordChar '.' hmem) (by decide)
    rw [isPath, Text.split_intercalate hpoint hne, List.all_eq_true]
    intro word hword
    simp [(hwords word hword).ne_nil, List.all_eq_true.mpr (hwords word hword).isWordChar]

/-- A path begins with a word character. -/
theorem exists_eq_cons_of_isPath {path : List Char} (h : isPath path = true) :
    ∃ c rest, path = c :: rest ∧ isWordChar c = true := by
  obtain ⟨words, hne, hwords, rfl⟩ := isPath_iff.mp h
  obtain ⟨first, others, rfl⟩ := List.exists_cons_of_ne_nil hne
  have hfirst := hwords first List.mem_cons_self
  obtain ⟨c, rest, rfl⟩ := List.exists_cons_of_ne_nil hfirst.ne_nil
  have hc := hfirst.isWordChar c List.mem_cons_self
  cases others with
  | nil => exact ⟨c, rest, by simp, hc⟩
  | cons second others => exact ⟨c, _, by rw [List.intercalate_cons_cons]; rfl, hc⟩

theorem isPathChar_of_mem {path : List Char} (h : isPath path = true) {c : Char} (hc : c ∈ path) :
    isPathChar c = true := by
  obtain ⟨words, -, hwords, rfl⟩ := isPath_iff.mp h
  rcases Text.eq_or_exists_of_mem_intercalate hc with rfl | ⟨word, hword, hmem⟩
  · rfl
  · simp [isPathChar, (hwords word hword).isWordChar c hmem]

theorem not_isPathChar_of_isBlank {c : Char} (h : isBlank c = true) : isPathChar c = false := by
  have hpoint : c ≠ '.' := by
    rintro rfl
    exact absurd h (by decide)
  simp [isPathChar, Text.not_isWordChar_of_isBlank h, hpoint]

theorem read?_written {p : Placeholder} (h : p.IsWellFormed) (rest : List Char) :
    read? (p.written ++ rest) = some (p, rest) := by
  have hpath : isPath p.path = true := isPath_iff.mpr h.path
  obtain ⟨c, others, hcons, hc⟩ := exists_eq_cons_of_isPath hpath
  let behind := p.behind ++ '\x7d' :: '\x7d' :: rest
  have htext : p.written ++ rest = '\x7b' :: '\x7b' :: (p.before ++ (p.path ++ behind)) := by
    simp [written, behind]
  have hbefore := Text.takeWhile_append_of_head p.before (p.path ++ behind) h.before (by
    intro d hd
    obtain rfl : c = d := by simpa [hcons] using hd
    exact Bool.eq_false_iff.mpr fun hblank => by
      simp [Text.not_isWordChar_of_isBlank hblank] at hc)
  have hmiddle := Text.takeWhile_append_of_head p.path behind
    (fun d hd => isPathChar_of_mem hpath hd) (by
      intro d hd
      cases hb : p.behind with
      | nil =>
        obtain rfl : '\x7d' = d := by simpa [behind, hb] using hd
        decide
      | cons first blanks =>
        obtain rfl : first = d := by simpa [behind, hb] using hd
        exact not_isPathChar_of_isBlank (h.behind first (hb ▸ List.mem_cons_self)))
  have hbehind := Text.takeWhile_append_of_head p.behind ('\x7d' :: '\x7d' :: rest) h.behind (by
    intro d hd
    obtain rfl : '\x7d' = d := by simpa using hd
    decide)
  rw [htext, read?]
  simp only [hbefore, hmiddle, behind, hbehind, hpath, if_true]

/-- **A text begins with a well-formed placeholder exactly if that is what is read from it.** -/
theorem read?_eq_some_iff {cs rest : List Char} {p : Placeholder} :
    read? cs = some (p, rest) ↔ p.IsWellFormed ∧ cs = p.written ++ rest := by
  refine ⟨fun h => ⟨?_, eq_of_read? h⟩, fun ⟨hp, hcs⟩ => hcs ▸ read?_written hp rest⟩
  unfold read? at h
  split at h
  next cs =>
    dsimp only at h
    split at h
    next =>
      split at h
      next hpath =>
        obtain ⟨rfl, -⟩ := Prod.mk.inj (Option.some.inj h)
        exact ⟨fun c hc => List.all_eq_true.mp List.all_takeWhile c hc, isPath_iff.mp hpath,
          fun c hc => List.all_eq_true.mp List.all_takeWhile c hc⟩
      next => cases h
    next => cases h
  next => cases h

/-! ## Placeholders in a text -/

/-- A well-formed placeholder stands at a place of a text. -/
structure StandsAt (p : Placeholder) (cs : List Char) (place : Nat) : Prop where
  isWellFormed : p.IsWellFormed
  isPrefix : p.written <+: cs.drop place

/-- Whether a place lies in a placeholder that stands at `start`. -/
def Covers (p : Placeholder) (start place : Nat) : Prop :=
  start ≤ place ∧ place < start + p.written.length

/-- What stands behind the two opening braces. -/
def inner (p : Placeholder) : List Char :=
  p.before ++ p.path ++ p.behind ++ ['\x7d', '\x7d']

theorem written_eq (p : Placeholder) : p.written = '\x7b' :: '\x7b' :: p.inner := rfl

theorem inner_ne_nil (p : Placeholder) : p.inner ≠ [] := by
  simp [inner]

/-- Behind its two opening braces a placeholder has no other. -/
theorem IsWellFormed.not_mem_inner {p : Placeholder} (h : p.IsWellFormed) : '\x7b' ∉ p.inner := by
  have hpath : isPath p.path = true := isPath_iff.mpr h.path
  simp only [inner, List.mem_append, not_or]
  refine ⟨⟨⟨fun hmem => ?_, fun hmem => ?_⟩, fun hmem => ?_⟩, by decide⟩
  · exact absurd (h.before _ hmem) (by decide)
  · exact absurd (isPathChar_of_mem hpath hmem) (by decide)
  · exact absurd (h.behind _ hmem) (by decide)

variable {p q : Placeholder} {cs : List Char} {i j : Nat}

theorem StandsAt.le_length (h : p.StandsAt cs i) : i + p.written.length ≤ cs.length := by
  have hlength := h.isPrefix.length_le
  rw [List.length_drop] at hlength
  have hpos : 0 < p.written.length := by simp [written_eq]
  omega

theorem StandsAt.getElem?_add (h : p.StandsAt cs i) {k : Nat} (hk : k < p.written.length) :
    cs[i + k]? = p.written[k]? := by
  obtain ⟨rest, hrest⟩ := h.isPrefix
  rw [← List.getElem?_drop, ← hrest, List.getElem?_append_left hk]

/-- Where a placeholder stands in a text does not depend on what is in front of the text. -/
theorem standsAt_append_iff (front : List Char) :
    p.StandsAt (front ++ cs) (front.length + i) ↔ p.StandsAt cs i := by
  have hdrop : (front ++ cs).drop (front.length + i) = cs.drop i := by simp
  exact ⟨fun h => ⟨h.isWellFormed, hdrop ▸ h.isPrefix⟩,
    fun h => ⟨h.isWellFormed, hdrop ▸ h.isPrefix⟩⟩

/-- At one place stands at most one placeholder. -/
theorem StandsAt.unique (hp : p.StandsAt cs i) (hq : q.StandsAt cs i) : p = q := by
  obtain ⟨rest, hrest⟩ := hp.isPrefix
  obtain ⟨rest', hrest'⟩ := hq.isPrefix
  have hread := read?_eq_some_iff.mpr ⟨hp.isWellFormed, hrest.symm⟩
  rw [read?_eq_some_iff.mpr ⟨hq.isWellFormed, hrest'.symm⟩] at hread
  exact (Prod.mk.inj (Option.some.inj hread)).1.symm

/-- **Two placeholders of a text never overlap**: one ends before the other begins. -/
theorem StandsAt.disjoint (hp : p.StandsAt cs i) (hq : q.StandsAt cs j) (h : i < j) :
    i + p.written.length ≤ j := by
  refine Nat.le_of_not_lt fun hlt => ?_
  have hbrace : ∀ l < 2, cs[j + l]? = some '\x7b' := by
    intro l hl
    rw [hq.getElem?_add (by simp [written_eq]; omega), written_eq]
    match l, hl with
    | 0, _ => rfl
    | 1, _ => rfl
  -- One of the two braces of the later placeholder would lie inside the earlier one.
  obtain ⟨l, hl, m, hm, hmlt⟩ : ∃ l < 2, ∃ m, j + l = i + (m + 2) ∧ m + 2 < p.written.length := by
    have hinner : 0 < p.inner.length := List.length_pos_iff.mpr p.inner_ne_nil
    have hlength : p.written.length = p.inner.length + 2 := by simp [written_eq]
    by_cases hnext : j = i + 1
    · exact ⟨1, by omega, 0, by omega, by omega⟩
    · exact ⟨0, by omega, j - i - 2, by omega, by omega⟩
  have hfound := hbrace l hl
  rw [hm, hp.getElem?_add hmlt, written_eq] at hfound
  exact hp.isWellFormed.not_mem_inner (List.mem_of_getElem? hfound)

/-- Two placeholders that cover one place are one and the same. -/
theorem StandsAt.eq_of_covers (hp : p.StandsAt cs i) (hq : q.StandsAt cs j) {place : Nat}
    (hi : p.Covers i place) (hj : q.Covers j place) : i = j ∧ p = q := by
  rcases Nat.lt_trichotomy i j with h | rfl | h
  · have := hp.disjoint hq h
    have := hi.2
    have := hj.1
    omega
  · exact ⟨rfl, hp.unique hq⟩
  · have := hq.disjoint hp h
    have := hj.2
    have := hi.1
    omega

end Placeholder

end Outreach
