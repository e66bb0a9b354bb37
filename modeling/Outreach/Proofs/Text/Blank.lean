import Outreach.Number.Numeral
import Outreach.Proofs.Text.Split
import Outreach.Text.Blank

/-!
# White space around a text

The white space of Unicode, code point by code point (`Text.isBlank_iff`). A text is trimmed to what
stands between the white space at its two ends (`Text.exists_trims`), and to nothing else
(`Text.Trims.eq_trim`).
-/

namespace Outreach.Text

/-- The code points of the blank characters. -/
def blankPoints : List Nat :=
  [0x09, 0x0A, 0x0B, 0x0C, 0x0D, 0x20, 0x85, 0xA0, 0x1680, 0x2000, 0x2001, 0x2002, 0x2003, 0x2004,
   0x2005, 0x2006, 0x2007, 0x2008, 0x2009, 0x200A, 0x2028, 0x2029, 0x202F, 0x205F, 0x3000]

theorem isBlank_iff {c : Char} : isBlank c = true ↔ c.toNat ∈ blankPoints := by
  simp only [isBlank, CharClass.member, blanks, CharClass.memberFrom, blankPoints, List.mem_cons,
    List.not_mem_nil, or_false]
  generalize c.toNat = point
  simp
  omega

/-- Digits are no white space. -/
theorem isBlank_of_isDigit {c : Char} (h : Numeral.isDigit c = true) : isBlank c = false := by
  simp only [Numeral.isDigit, Bool.and_eq_true, decide_eq_true_eq] at h
  simp [isBlank, CharClass.member, blanks, CharClass.memberFrom]
  omega

theorem trimStart_cons {c : Char} (h : isBlank c = false) (cs : List Char) :
    trimStart (c :: cs) = c :: cs := by
  simp [trimStart, h]

/-- A text with white space, or nothing, on either side of a core that has none at its ends. -/
structure Trims (cs front core back : List Char) : Prop where
  text : cs = front ++ (core ++ back)
  blank : ∀ c ∈ front ++ back, c.toNat ∈ blankPoints
  first : ∀ c ∈ core.head?, c.toNat ∉ blankPoints
  last : ∀ c ∈ core.getLast?, c.toNat ∉ blankPoints

/-- White space at the start of a text is taken off. -/
theorem trimStart_append {front rest : List Char} (hfront : ∀ c ∈ front, isBlank c = true)
    (hrest : ∀ c ∈ rest.head?, isBlank c = false) : trimStart (front ++ rest) = rest :=
  (takeWhile_append_of_head front rest hfront hrest).2

/-- White space at the end of a text is taken off. -/
theorem trimEnd_append {rest back : List Char} (hback : ∀ c ∈ back, isBlank c = true)
    (hrest : ∀ c ∈ rest.getLast?, isBlank c = false) : trimEnd (rest ++ back) = rest := by
  have hreverse : (rest ++ back).reverse.dropWhile isBlank = rest.reverse := by
    rw [List.reverse_append]
    exact trimStart_append (fun c hc => hback c (List.mem_reverse.mp hc))
      (by rwa [List.head?_reverse])
  rw [trimEnd, hreverse, List.reverse_reverse]

/-- What stands between the white space is what is left when it is trimmed. -/
theorem Trims.eq_trim {cs front core back : List Char} (h : Trims cs front core back) :
    trim cs = core := by
  obtain ⟨rfl, hblank, hfirst, hlast⟩ := h
  simp only [← isBlank_iff, Bool.not_eq_true, List.forall_mem_append] at hblank hfirst hlast
  cases core with
  | nil =>
    have hall : ∀ c ∈ front ++ back, isBlank c = true := by
      simpa only [List.forall_mem_append] using hblank
    have hstart : trimStart (front ++ back) = [] := by
      have hend : ∀ c ∈ ([] : List Char).head?, isBlank c = false := by simp
      simpa using trimStart_append hall hend
    rw [List.nil_append, trim, hstart]
    rfl
  | cons c rest =>
    have hstart : trimStart (front ++ (c :: rest ++ back)) = c :: rest ++ back :=
      trimStart_append hblank.1 hfirst
    rw [trim, hstart, trimEnd_append hblank.2 hlast]

theorem not_isBlank_head_dropWhile {cs : List Char} {c : Char}
    (h : c ∈ (cs.dropWhile isBlank).head?) : isBlank c = false := by
  have hnot := List.head?_dropWhile_not isBlank cs
  rw [Option.mem_def.mp h] at hnot
  simpa using hnot

/-- White space can be taken off both ends of a text. -/
theorem exists_trims (cs : List Char) : ∃ front back, Trims cs front (trim cs) back := by
  have hstart : cs = cs.takeWhile isBlank ++ trimStart cs := List.takeWhile_append_dropWhile.symm
  have hend : trimStart cs = trim cs ++ ((trimStart cs).reverse.takeWhile isBlank).reverse := by
    rw [trim, trimEnd, ← List.reverse_append, List.takeWhile_append_dropWhile, List.reverse_reverse]
  refine ⟨cs.takeWhile isBlank, ((trimStart cs).reverse.takeWhile isBlank).reverse, ?_, ?_, ?_, ?_⟩
  · rw [← hend]
    exact hstart
  · intro c hc
    rw [List.mem_append, List.mem_reverse] at hc
    rw [← isBlank_iff]
    rcases hc with hc | hc
    · exact List.all_eq_true.mp List.all_takeWhile c hc
    · exact List.all_eq_true.mp List.all_takeWhile c hc
  · intro c hc
    have hhead : c ∈ (trimStart cs).head? := by
      rw [hend, List.head?_append, Option.mem_def.mp hc]
      rfl
    rw [← isBlank_iff, not_isBlank_head_dropWhile hhead]
    exact Bool.false_ne_true
  · intro c hc
    have hlast : c ∈ ((trimStart cs).reverse.dropWhile isBlank).head? := by
      rwa [trim, trimEnd, List.getLast?_reverse] at hc
    rw [← isBlank_iff, not_isBlank_head_dropWhile hlast]
    exact Bool.false_ne_true

theorem trim_eq_iff {cs core : List Char} :
    trim cs = core ↔ ∃ front back, Trims cs front core back := by
  constructor
  · rintro rfl
    exact exists_trims cs
  · rintro ⟨front, back, h⟩
    exact h.eq_trim

end Outreach.Text
