import Outreach.Text.Split

/-!
# Taking apart and joining

A row of characters of one kind is taken off a text whole (`Text.takeWhile_append_of_head`).
`Text.split` cuts at every separator, so what was joined with separators is taken apart into what it
was joined from (`Text.split_intercalate`), and the pieces of a text make up the text again
(`Text.intercalate_split`).
-/

namespace Outreach.Text

/-- A row of characters of one kind is cut off where none of them follows. -/
theorem takeWhile_append_of_head {kind : Char → Bool} (row rest : List Char)
    (hrow : ∀ c ∈ row, kind c = true) (hrest : ∀ c ∈ rest.head?, kind c = false) :
    (row ++ rest).takeWhile kind = row ∧ (row ++ rest).dropWhile kind = rest := by
  rw [List.takeWhile_append_of_pos hrow, List.dropWhile_append_of_pos hrow]
  cases rest with
  | nil => simp
  | cons c rest => simp [hrest c rfl]

variable {separator : Char}

theorem split_eq_splitOn (separator : Char) (cs : List Char) :
    split separator cs = cs.splitOn separator := by
  induction cs with
  | nil => rfl
  | cons c rest ih =>
    rw [split, List.splitOn_cons_eq_if_modifyHead, ih]
    by_cases hc : c = separator
    · simp [hc]
    · obtain ⟨piece, pieces, hpieces⟩ :=
        List.exists_cons_of_ne_nil (List.splitOn_ne_nil separator rest)
      simp [hc, hpieces]

/-- What was joined is taken apart again. -/
theorem split_intercalate {pieces : List (List Char)} (h : ∀ piece ∈ pieces, separator ∉ piece)
    (hne : pieces ≠ []) : split separator (List.intercalate [separator] pieces) = pieces := by
  rw [split_eq_splitOn, List.splitOn_intercalate separator h hne]

/-- The pieces with the separator between them make up the text. -/
theorem intercalate_split (separator : Char) (cs : List Char) :
    List.intercalate [separator] (split separator cs) = cs := by
  rw [split_eq_splitOn, List.intercalate_splitOn]

/-- A text is taken apart at a separator into the pieces of both sides. -/
theorem split_append (separator : Char) (cs rest : List Char) :
    split separator (cs ++ separator :: rest) = split separator cs ++ split separator rest := by
  induction cs with
  | nil => simp [split]
  | cons c cs ih =>
    obtain ⟨piece, pieces, hpieces⟩ := List.exists_cons_of_ne_nil (split_ne_nil separator cs)
    rw [List.cons_append, split, split, ih, hpieces]
    split <;> rfl

/-- No separator stands in a piece. -/
theorem not_mem_of_mem_split {cs piece : List Char} (h : piece ∈ split separator cs) :
    separator ∉ piece := by
  induction cs generalizing piece with
  | nil =>
    rw [split, List.mem_singleton] at h
    simp [h]
  | cons c cs ih =>
    obtain ⟨first, pieces, hpieces⟩ := List.exists_cons_of_ne_nil (split_ne_nil separator cs)
    rw [hpieces] at ih
    rw [split, hpieces] at h
    split at h
    next =>
      rcases List.mem_cons.mp h with rfl | h
      · exact List.not_mem_nil
      · exact ih h
    next hc =>
      rcases List.mem_cons.mp h with rfl | h
      · exact List.not_mem_cons_of_ne_of_not_mem (Ne.symm hc) (ih List.mem_cons_self)
      · exact ih (List.mem_cons_of_mem _ h)

theorem sublist_of_mem_split {cs piece : List Char} (h : piece ∈ split separator cs) :
    piece.Sublist cs := by
  induction cs generalizing piece with
  | nil =>
    rw [split, List.mem_singleton] at h
    subst h
    exact .slnil
  | cons c cs ih =>
    obtain ⟨first, pieces, hpieces⟩ := List.exists_cons_of_ne_nil (split_ne_nil separator cs)
    rw [hpieces] at ih
    rw [split, hpieces] at h
    split at h
    next =>
      rcases List.mem_cons.mp h with rfl | h
      · exact List.nil_sublist _
      · exact (ih h).cons c
    next =>
      rcases List.mem_cons.mp h with rfl | h
      · exact (ih List.mem_cons_self).cons_cons c
      · exact (ih (List.mem_cons_of_mem _ h)).cons c

theorem split_of_not_mem {cs : List Char} (h : separator ∉ cs) : split separator cs = [cs] := by
  have hjoined := split_intercalate (List.forall_mem_singleton.mpr h) (List.cons_ne_nil cs [])
  rwa [List.intercalate_singleton] at hjoined

/-- What stands before the first separator, or all of a text without one. -/
theorem before_splitOnce (separator : Char) (cs : List Char) :
    ((splitOnce separator cs).map Prod.fst).getD cs = cs.takeWhile (· ≠ separator) := by
  induction cs with
  | nil => rfl
  | cons c rest ih =>
    rw [splitOnce]
    by_cases hc : c = separator
    · simp [hc]
    · rw [if_neg hc, List.takeWhile_cons_of_pos (by simpa using hc), ← ih]
      cases splitOnce separator rest <;> rfl

theorem splitOnce_of_not_mem {cs : List Char} (h : separator ∉ cs) : splitOnce separator cs = none := by
  induction cs with
  | nil => rfl
  | cons c rest ih =>
    obtain ⟨hc, hrest⟩ := not_or.mp (mt List.mem_cons.mpr h)
    rw [splitOnce, if_neg (Ne.symm hc), ih hrest]
    rfl

theorem eq_of_splitOnce {cs before behind : List Char}
    (h : splitOnce separator cs = some (before, behind)) : cs = before ++ separator :: behind := by
  induction cs generalizing before with
  | nil => cases h
  | cons c cs ih =>
    rw [splitOnce] at h
    split at h
    next hc =>
      cases h
      rw [hc, List.nil_append]
    next =>
      obtain ⟨⟨front, tail⟩, htail, hpair⟩ := Option.map_eq_some_iff.mp h
      cases hpair
      rw [ih htail, List.cons_append]

/-- A text is cut once where nothing before the cut is a separator. -/
theorem splitOnce_eq_some_iff {cs before behind : List Char} :
    splitOnce separator cs = some (before, behind) ↔
      cs = before ++ separator :: behind ∧ separator ∉ before := by
  constructor
  · intro h
    have htake := before_splitOnce separator cs
    rw [h] at htake
    obtain rfl : before = cs.takeWhile (· ≠ separator) := htake
    refine ⟨eq_of_splitOnce h, fun hmem => ?_⟩
    simpa using List.all_eq_true.mp List.all_takeWhile separator hmem
  · rintro ⟨rfl, hbefore⟩
    induction before with
    | nil => simp [splitOnce]
    | cons c rest ih =>
      obtain ⟨hc, hrest⟩ := not_or.mp (mt List.mem_cons.mpr hbefore)
      rw [List.cons_append, splitOnce, if_neg (Ne.symm hc), ih hrest]
      rfl

theorem splitOnce_eq_none_iff {cs : List Char} : splitOnce separator cs = none ↔ separator ∉ cs := by
  refine ⟨fun h hmem => ?_, splitOnce_of_not_mem⟩
  obtain ⟨before, behind, hcs, hbefore⟩ := List.eq_append_cons_of_mem hmem
  rw [splitOnce_eq_some_iff.mpr ⟨hcs, hbefore⟩] at h
  cases h

theorem splitOnce_append_of_some {cs before behind : List Char}
    (h : splitOnce separator cs = some (before, behind)) (rest : List Char) :
    splitOnce separator (cs ++ rest) = some (before, behind ++ rest) := by
  induction cs generalizing before with
  | nil => cases h
  | cons c cs ih =>
    rw [splitOnce] at h
    rw [List.cons_append, splitOnce]
    split at h
    next hc =>
      cases h
      rw [if_pos hc]
    next hc =>
      obtain ⟨⟨front, tail⟩, htail, hpair⟩ := Option.map_eq_some_iff.mp h
      cases hpair
      rw [if_neg hc, ih htail]
      rfl

theorem splitOnce_append_of_not_mem {cs rest : List Char} (h : separator ∉ rest) :
    splitOnce separator (cs ++ rest) =
      (splitOnce separator cs).map fun found => (found.1, found.2 ++ rest) := by
  induction cs with
  | nil => exact splitOnce_of_not_mem h
  | cons c cs ih =>
    rw [List.cons_append, splitOnce, splitOnce, ih]
    split
    next => rfl
    next => cases splitOnce separator cs <;> rfl

/-- In a joined text stands what stands in a piece, and the separator. -/
theorem eq_or_exists_of_mem_intercalate {pieces : List (List Char)} {c : Char}
    (h : c ∈ List.intercalate [separator] pieces) :
    c = separator ∨ ∃ piece ∈ pieces, c ∈ piece := by
  induction pieces with
  | nil => simp at h
  | cons first rest ih =>
    cases rest with
    | nil => exact .inr ⟨first, List.mem_cons_self, by simpa using h⟩
    | cons second rest =>
      rw [List.intercalate_cons_cons, List.append_assoc, List.mem_append, List.mem_append] at h
      rcases h with h | h | h
      · exact .inr ⟨first, List.mem_cons_self, h⟩
      · exact .inl (List.mem_singleton.mp h)
      · exact (ih h).imp_right fun ⟨piece, hpiece, hc⟩ => ⟨piece, List.mem_cons_of_mem _ hpiece, hc⟩

end Outreach.Text
