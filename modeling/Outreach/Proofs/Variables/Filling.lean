import Mathlib.Logic.Relation
import Outreach.Proofs.Variables.Placeholder

/-!
# What becomes of a template

In a template that is filled in, the value of its path stands where each placeholder stood whose path
leads somewhere, and every other character stands as it did (`Template.Becomes`). Since placeholders
do not overlap, they may as well be filled in one after the other in any order, as long as what was
put in is not looked at again (`Template.FillsIn`). `Template.interpolate_exact` states both.
-/

namespace Outreach

/-- The text that a placeholder is replaced by, if its path leads somewhere. -/
def Placeholder.value? (p : Placeholder) (vars : Variables) : Option (List Char) :=
  (vars.resolve? (String.ofList p.path)).map fun value => (Coercion.inserted value).toList

theorem Piece.filled_placeholder (p : Placeholder) (vars : Variables) :
    (Piece.placeholder p).filled vars = (p.value? vars).getD p.written := by
  rw [Piece.filled, Placeholder.value?]
  cases vars.resolve? (String.ofList p.path) <;> rfl

namespace Template

open Placeholder (read? read?_eq_some_iff read?_written standsAt_append_iff)

variable {vars : Variables} {p q : Placeholder} {cs rest a b x : List Char} {place start : Nat}

/-! ## Every character of a template -/

/-- What becomes of the character at a place of a template when all placeholders are filled in at
once. -/
inductive Becomes (vars : Variables) (cs : List Char) (place : Nat) : List Char → Prop
  /-- A placeholder with a value begins here. -/
  | filled {p : Placeholder} {value : List Char} (stands : p.StandsAt cs place)
    (hvalue : p.value? vars = some value) : Becomes vars cs place value
  /-- A placeholder with a value begins further in front and ends further behind. -/
  | covered {p : Placeholder} {start : Nat} (stands : p.StandsAt cs start)
    (hvalue : (p.value? vars).isSome = true) (hcovers : p.Covers start place)
    (hne : start ≠ place) : Becomes vars cs place []
  /-- No placeholder with a value lies here. -/
  | kept {c : Char} (hc : cs[place]? = some c)
    (hfree : ∀ (p : Placeholder) (start : Nat), p.StandsAt cs start →
      (p.value? vars).isSome = true → ¬ p.Covers start place) : Becomes vars cs place [c]

theorem covers_start (p : Placeholder) (start : Nat) : p.Covers start start := by
  refine ⟨Nat.le_refl _, ?_⟩
  simp [Placeholder.written_eq]

/-- Only one thing becomes of a character. -/
theorem Becomes.unique {y : List Char} (hx : Becomes vars cs place x) (hy : Becomes vars cs place y) :
    x = y := by
  cases hx with
  | filled hp hv =>
    cases hy with
    | filled hq hw =>
      obtain rfl := hp.unique hq
      exact Option.some.inj (hv.symm.trans hw)
    | covered hq hw hcovers hne =>
      exact absurd (hq.eq_of_covers hp hcovers (covers_start _ _)).1 hne
    | kept hc hfree => exact absurd (covers_start _ _) (hfree _ _ hp (by simp [hv]))
  | covered hp hv hcovers hne =>
    cases hy with
    | filled hq hw => exact absurd (hp.eq_of_covers hq hcovers (covers_start _ _)).1 hne
    | covered => rfl
    | kept hc hfree => exact absurd hcovers (hfree _ _ hp hv)
  | kept hc hfree =>
    cases hy with
    | filled hq hw => exact absurd (covers_start _ _) (hfree _ _ hq (by simp [hw]))
    | covered hq hw hcovers hne => exact absurd hcovers (hfree _ _ hq hw)
    | kept hd => rw [Option.some.inj (hc.symm.trans hd)]

theorem Becomes.lt_length (h : Becomes vars cs place x) : place < cs.length := by
  cases h with
  | @filled p _ hp =>
    have := hp.le_length
    have := (covers_start p place).2
    omega
  | covered hp _ hcovers =>
    have := hp.le_length
    have := hcovers.2
    omega
  | kept hc => exact (List.getElem?_eq_some_iff.mp hc).1

/-- Every placeholder of a text that begins in its front part also ends there. -/
def CutsNone (front back : List Char) : Prop :=
  ∀ (p : Placeholder) (start : Nat), p.StandsAt (front ++ back) start → start < front.length →
    start + p.written.length ≤ front.length

/-- What becomes of a text behind a cut does not depend on what stands in front of it. -/
theorem Becomes.append (hcut : CutsNone a cs) (h : Becomes vars cs place x) :
    Becomes vars (a ++ cs) (a.length + place) x := by
  cases h with
  | filled hp hv => exact .filled ((standsAt_append_iff a).mpr hp) hv
  | covered hp hv hcovers hne =>
    refine .covered ((standsAt_append_iff a).mpr hp) hv ⟨?_, ?_⟩ (by omega)
    · have := hcovers.1
      omega
    · have := hcovers.2
      omega
  | kept hc hfree =>
    refine .kept (by rw [List.getElem?_append_right (by omega)]; simpa using hc)
      fun p start hp hv hcovers => ?_
    have hend := hcovers.2
    have hbegin := hcovers.1
    rcases Nat.lt_or_ge start a.length with hlt | hge
    · have := hcut p start hp hlt
      omega
    · obtain ⟨shifted, rfl⟩ := Nat.exists_eq_add_of_le hge
      exact hfree p shifted ((standsAt_append_iff a).mp hp) hv ⟨by omega, by omega⟩

/-- What becomes of the places of a whole text, in order. -/
structure Outcome (vars : Variables) (cs : List Char) (out : List (List Char)) : Prop where
  length : out.length = cs.length
  becomes : ∀ place x, out[place]? = some x → Becomes vars cs place x

/-- What becomes of a text is put together from what becomes of its parts at a cut. -/
theorem Outcome.append {out : List (List Char)} (front : List (List Char)) (hcut : CutsNone a cs)
    (hlength : front.length = a.length)
    (hfront : ∀ place x, front[place]? = some x → Becomes vars (a ++ cs) place x)
    (h : Outcome vars cs out) : Outcome vars (a ++ cs) (front ++ out) := by
  refine ⟨by simp [hlength, h.length], fun place x hx => ?_⟩
  rcases Nat.lt_or_ge place front.length with hlt | hge
  · exact hfront place x (by rwa [List.getElem?_append_left hlt] at hx)
  · obtain ⟨behind, rfl⟩ := Nat.exists_eq_add_of_le hge
    rw [List.getElem?_append_right hge, Nat.add_sub_cancel_left] at hx
    exact hlength ▸ (h.becomes behind x hx).append hcut

/-- Nothing reaches over the end of a placeholder. -/
theorem cutsNone_written (hp : p.IsWellFormed) (rest : List Char) : CutsNone p.written rest := by
  intro q start hq hlt
  have hstands : p.StandsAt (p.written ++ rest) 0 := ⟨hp, by simp⟩
  obtain ⟨rfl, rfl⟩ := hstands.eq_of_covers hq ⟨Nat.zero_le _, by omega⟩ (covers_start q start)
  omega

/-- Nothing reaches over a character at which no placeholder begins. -/
theorem cutsNone_character {c : Char} (h : read? (c :: rest) = none) : CutsNone [c] rest := by
  intro q start hq hlt
  obtain rfl : start = 0 := by simpa using hlt
  obtain ⟨behind, hbehind⟩ := hq.isPrefix
  have hread : read? (c :: rest) = some (q, behind) :=
    read?_eq_some_iff.mpr ⟨hq.isWellFormed, hbehind.symm⟩
  rw [h] at hread
  cases hread

/-- What becomes of the places in a placeholder: its value stands for all of them, or they stay. -/
def placeholderOutcome (p : Placeholder) (vars : Variables) : List (List Char) :=
  match p.value? vars with
  | some value => value :: List.replicate (p.written.length - 1) []
  | none => p.written.map fun c => [c]

theorem length_placeholderOutcome (p : Placeholder) (vars : Variables) :
    (placeholderOutcome p vars).length = p.written.length := by
  unfold placeholderOutcome
  split
  · simp [Placeholder.written_eq]
  · simp

theorem flatten_placeholderOutcome (p : Placeholder) (vars : Variables) :
    (placeholderOutcome p vars).flatten = (Piece.placeholder p).filled vars := by
  rw [Piece.filled_placeholder, placeholderOutcome]
  split
  next value hvalue => simp [hvalue]
  next hnone => simp [hnone, ← List.flatMap_def]

theorem becomes_placeholderOutcome (hp : p.IsWellFormed) (rest : List Char)
    (h : (placeholderOutcome p vars)[place]? = some x) :
    Becomes vars (p.written ++ rest) place x := by
  have hstands : p.StandsAt (p.written ++ rest) 0 := ⟨hp, by simp⟩
  have hlt : place < p.written.length := by
    rw [← length_placeholderOutcome p vars]
    exact (List.getElem?_eq_some_iff.mp h).1
  unfold placeholderOutcome at h
  split at h
  next value hvalue =>
    cases place with
    | zero =>
      obtain rfl : value = x := by simpa using h
      exact .filled hstands hvalue
    | succ place =>
      obtain rfl : [] = x := by
        rw [List.getElem?_cons_succ, List.getElem?_replicate] at h
        split at h
        next => exact Option.some.inj h
        next => cases h
      exact .covered hstands (by simp [hvalue]) ⟨Nat.zero_le _, by omega⟩ (by omega)
  next hnone =>
    rw [List.getElem?_map, Option.map_eq_some_iff] at h
    obtain ⟨c, hc, rfl⟩ := h
    refine .kept (by rw [List.getElem?_append_left hlt, hc]) fun q start hq hvalue hcovers => ?_
    obtain ⟨-, rfl⟩ := hstands.eq_of_covers hq ⟨Nat.zero_le _, by omega⟩ hcovers
    rw [hnone] at hvalue
    cases hvalue

/-- Filling in puts together what becomes of each character. -/
theorem exists_outcome (cs : List Char) (vars : Variables) :
    ∃ out, Outcome vars cs out ∧ fill cs vars = out.flatten := by
  unfold fill
  fun_induction pieces cs with
  | case1 cs p rest hread ih =>
    obtain ⟨out, hout, hfill⟩ := ih
    obtain ⟨hp, rfl⟩ := read?_eq_some_iff.mp hread
    refine ⟨placeholderOutcome p vars ++ out, hout.append _ (cutsNone_written hp rest)
      (length_placeholderOutcome p vars) fun _ _ => becomes_placeholderOutcome hp rest, ?_⟩
    rw [List.flatMap_cons, hfill, List.flatten_append, flatten_placeholderOutcome]
  | case2 => exact ⟨[], ⟨rfl, by simp⟩, rfl⟩
  | case3 c rest hread ih =>
    obtain ⟨out, hout, hfill⟩ := ih
    refine ⟨[c] :: out, hout.append [[c]] (cutsNone_character hread) rfl
      fun place x hx => ?_, ?_⟩
    · obtain ⟨rfl, rfl⟩ : place = 0 ∧ [c] = x := by
        cases place with
        | zero => simpa using hx
        | succ => simp at hx
      refine .kept rfl fun q start hq hvalue hcovers => ?_
      obtain rfl : start = 0 := Nat.le_zero.mp hcovers.1
      have hend := cutsNone_character hread q 0 hq (by simp)
      have hlength : 2 ≤ q.written.length := by simp [Placeholder.written_eq]
      simp at hend
      omega
    · rw [List.flatMap_cons, hfill]
      rfl

/-! ## One placeholder after the other -/

theorem pieces_of_read? (h : read? cs = some (p, rest)) :
    pieces cs = .placeholder p :: pieces rest := by
  rw [pieces]
  split
  next hread =>
    obtain ⟨rfl, rfl⟩ := Prod.mk.inj (Option.some.inj (h.symm.trans hread))
    rfl
  next hread =>
    rw [h] at hread
    cases hread

theorem pieces_cons {c : Char} (h : read? (c :: rest) = none) :
    pieces (c :: rest) = .character c :: pieces rest := by
  rw [pieces]
  split
  next hread =>
    rw [h] at hread
    cases hread
  next => rfl

/-- A placeholder does not come about by what follows where another begins. -/
theorem read?_append_eq_none {c : Char} (h : read? (c :: a) = none) (hp : p.IsWellFormed)
    (b : List Char) : read? (c :: (a ++ (p.written ++ b))) = none := by
  refine Option.eq_none_iff_forall_ne_some.mpr fun ⟨q, behind⟩ hread => ?_
  obtain ⟨hq, htext⟩ := read?_eq_some_iff.mp hread
  have hstart : q.written <+: c :: (a ++ (p.written ++ b)) := ⟨behind, htext.symm⟩
  have hstands : p.StandsAt (c :: (a ++ (p.written ++ b))) (c :: a).length := ⟨hp, by simp⟩
  have hend := Placeholder.StandsAt.disjoint (i := 0) ⟨hq, hstart⟩ hstands (by simp)
  obtain ⟨left, hleft⟩ : q.written <+: c :: a :=
    List.prefix_of_prefix_length_le hstart ⟨p.written ++ b, rfl⟩ (by omega)
  rw [read?_eq_some_iff.mpr ⟨hq, hleft.symm⟩] at h
  cases h

/-- A placeholder cuts a text: what stands before it and behind it is taken apart by itself. -/
theorem pieces_append (hp : p.IsWellFormed) (a b : List Char) :
    pieces (a ++ (p.written ++ b)) = pieces a ++ .placeholder p :: pieces b := by
  fun_induction pieces a with
  | case1 cs q rest hread ih =>
    obtain ⟨hq, rfl⟩ := read?_eq_some_iff.mp hread
    rw [List.append_assoc, pieces_of_read? (read?_written hq _), ih]
    rfl
  | case2 => exact pieces_of_read? (read?_written hp b)
  | case3 c rest hread ih =>
    rw [List.cons_append, pieces_cons (read?_append_eq_none hread hp b), ih]
    rfl

theorem fill_append (hp : p.IsWellFormed) (a b : List Char) (vars : Variables) :
    fill (a ++ (p.written ++ b)) vars =
      fill a vars ++ ((p.value? vars).getD p.written ++ fill b vars) := by
  rw [fill, pieces_append hp, List.flatMap_append, List.flatMap_cons, Piece.filled_placeholder]
  rfl

/-- A stretch of a text that is being filled in. -/
inductive Stretch where
  /-- Not looked at yet. -/
  | raw (cs : List Char)
  /-- Put in, or left standing, for good. -/
  | settled (cs : List Char)

namespace Stretch

/-- The characters of a stretch. -/
def text : Stretch → List Char
  | raw cs | settled cs => cs

/-- A stretch with all its placeholders filled in. -/
def fill (vars : Variables) : Stretch → List Char
  | raw cs => Template.fill cs vars
  | settled cs => cs

end Stretch

/-- Any one placeholder that stands in a raw stretch is filled in. -/
inductive FillsIn (vars : Variables) : List Stretch → List Stretch → Prop
  | mk (before behind : List Stretch) (a b : List Char) {p : Placeholder} (hp : p.IsWellFormed) :
    FillsIn vars (before ++ .raw (a ++ (p.written ++ b)) :: behind)
      (before ++ .raw a :: .settled ((p.value? vars).getD p.written) :: .raw b :: behind)

theorem FillsIn.fill_eq {stretches next : List Stretch} (h : FillsIn vars stretches next) :
    next.flatMap (Stretch.fill vars) = stretches.flatMap (Stretch.fill vars) := by
  obtain ⟨before, behind, a, b, hp⟩ := h
  simp [Stretch.fill, fill_append hp]

/-- Whatever is filled in first, there is nothing else to come out in the end. -/
theorem fill_eq_of_fillsIn {stretches : List Stretch}
    (h : Relation.ReflTransGen (FillsIn vars) [.raw cs] stretches) :
    stretches.flatMap (Stretch.fill vars) = fill cs vars := by
  induction h with
  | refl => simp [Stretch.fill]
  | tail _ hstep ih => rw [hstep.fill_eq, ih]

/-- The number of characters that are not looked at yet. -/
def rawLength : List Stretch → Nat
  | [] => 0
  | .raw cs :: rest => cs.length + rawLength rest
  | .settled _ :: rest => rawLength rest

theorem rawLength_append (front back : List Stretch) :
    rawLength (front ++ back) = rawLength front + rawLength back := by
  induction front with
  | nil => simp [rawLength]
  | cons stretch rest ih => cases stretch <;> simp [rawLength, ih, Nat.add_assoc]

theorem FillsIn.rawLength_lt {stretches next : List Stretch} (h : FillsIn vars stretches next) :
    rawLength next < rawLength stretches := by
  obtain ⟨before, behind, a, b, hp⟩ := h
  simp [rawLength_append, rawLength, Placeholder.written_eq]
  omega

/-- Filling in one placeholder after the other comes to an end. -/
theorem exists_settled (vars : Variables) (stretches : List Stretch) :
    ∃ last, Relation.ReflTransGen (FillsIn vars) stretches last ∧
      ∀ next, ¬ FillsIn vars last next := by
  by_cases h : ∃ next, FillsIn vars stretches next
  · obtain ⟨next, hnext⟩ := h
    obtain ⟨last, hreach, hdone⟩ := exists_settled vars next
    exact ⟨last, .head hnext hreach, hdone⟩
  · exact ⟨stretches, .refl, not_exists.mp h⟩
termination_by rawLength stretches
decreasing_by exact hnext.rawLength_lt

/-- A text in which no placeholder stands is left as it is. -/
theorem fill_eq_self (h : ∀ p : Placeholder, p.IsWellFormed → ∀ a b, cs ≠ a ++ (p.written ++ b)) :
    fill cs vars = cs := by
  unfold fill
  fun_induction pieces cs with
  | case1 cs p rest hread =>
    obtain ⟨hp, rfl⟩ := read?_eq_some_iff.mp hread
    exact absurd rfl (h p hp [] rest)
  | case2 => rfl
  | case3 c rest hread ih =>
    have hrest := ih fun p hp a b hcs => h p hp (c :: a) b (congrArg (c :: ·) hcs)
    rw [List.flatMap_cons, hrest]
    rfl

/-- Where nothing is left to be filled in, all has been. -/
theorem text_eq_of_not_fillsIn {stretches : List Stretch}
    (h : ∀ next, ¬ FillsIn vars stretches next) :
    stretches.flatMap (Stretch.fill vars) = stretches.flatMap Stretch.text := by
  rw [List.flatMap_def, List.flatMap_def]
  refine congrArg List.flatten (List.map_congr_left fun stretch hmem => ?_)
  cases stretch with
  | settled => rfl
  | raw cs =>
    obtain ⟨before, behind, rfl⟩ := List.append_of_mem hmem
    refine fill_eq_self fun p hp a b hcs => ?_
    subst hcs
    exact h _ (.mk before behind a b hp)

/-! ## The whole template -/

/-- A template without two opening braces in a row holds no placeholder. -/
theorem fill_of_not_mayHoldPlaceholder {template : String}
    (h : mayHoldPlaceholder template = false) :
    fill template.toList vars = template.toList := by
  refine fill_eq_self fun p hp a b hcs => ?_
  rw [mayHoldPlaceholder, hcs] at h
  have hoccurs : ∀ front : List Char,
      Text.occursIn ['\x7b', '\x7b'] (front ++ (p.written ++ b)) = true := by
    intro front
    induction front with
    | nil => simp [Text.occursIn, Placeholder.written_eq]
    | cons c front ih => simp [Text.occursIn, ih]
  rw [hoccurs a] at h
  cases h

/-- The shortcut for templates without two opening braces in a row makes no difference. -/
theorem interpolate_eq (template : String) (vars : Variables) :
    interpolate template vars = String.ofList (fill template.toList vars) := by
  unfold interpolate
  split
  next => rfl
  next h => rw [fill_of_not_mayHoldPlaceholder (by simpa using h), String.ofList_toList]

/-- **A template is filled in exactly**: it is the scanned text, whether or not the shortcut is
taken; the value of its path stands where each placeholder stood whose path leads somewhere, and
every other character stands as it did; no two placeholders overlap; and one may fill them in one
after the other in any order, never looking again at what was put in. -/
theorem interpolate_exact (template : String) (vars : Variables) :
    interpolate template vars = String.ofList (fill template.toList vars) ∧
      (∃ out : List (List Char), interpolate template vars = String.ofList out.flatten ∧
        ∀ place x, Becomes vars template.toList place x ↔ out[place]? = some x) ∧
      (∀ (p q : Placeholder) (i j : Nat), p.StandsAt template.toList i →
        q.StandsAt template.toList j →
        (i = j ∧ p = q) ∨ i + p.written.length ≤ j ∨ j + q.written.length ≤ i) ∧
      ∀ stretches, Relation.ReflTransGen (FillsIn vars) [.raw template.toList] stretches →
        ((∀ next, ¬ FillsIn vars stretches next) →
          interpolate template vars = String.ofList (stretches.flatMap Stretch.text)) ∧
        ∃ last, Relation.ReflTransGen (FillsIn vars) stretches last ∧
          ∀ next, ¬ FillsIn vars last next := by
  have hscan := interpolate_eq template vars
  refine ⟨hscan, ?_, fun p q i j hp hq => ?_, fun stretches hreach => ?_⟩
  · obtain ⟨out, hout, hfill⟩ := exists_outcome template.toList vars
    refine ⟨out, by rw [hscan, hfill], fun place x => ⟨fun hx => ?_, hout.becomes place x⟩⟩
    have hlt : place < out.length := hout.length ▸ hx.lt_length
    have hother := hout.becomes place out[place] (List.getElem?_eq_getElem hlt)
    rw [hx.unique hother, List.getElem?_eq_getElem hlt]
  · rcases Nat.lt_trichotomy i j with h | rfl | h
    · exact .inr (.inl (hp.disjoint hq h))
    · exact .inl ⟨rfl, hp.unique hq⟩
    · exact .inr (.inr (hq.disjoint hp h))
  · refine ⟨fun hdone => ?_, exists_settled vars stretches⟩
    rw [hscan, ← fill_eq_of_fillsIn hreach, text_eq_of_not_fillsIn hdone]

/-- What was put in is not looked at again, though it makes a placeholder with what is around it. -/
example : interpolate "\x7b\x7b\x7b a \x7d\x7d\x7d\x7d" [("a", .string "\x7b\x7ba\x7d\x7d")] =
    "\x7b\x7b\x7ba\x7d\x7d\x7d\x7d" := by cbv

end Template

end Outreach
