import Mathlib.Data.Nat.Factorization.Basic
import Outreach.Number.Notation
import Outreach.Proofs.Number.Rounding

/-!
# Whole numbers as doubles

A double holds every whole number below `2 ^ 53` exactly, and no other whole number is taken for it
(`Double.round_whole`, `Decimal.eq_of_toDouble_eq`). So its digits, without the zeros at their end,
are the fewest that read back (`Double.shortest_whole`), and where a style writes them positionally
they are the numeral itself (`NumberStyle.render_whole`).
-/

namespace Outreach

namespace Numeral

/-- Zeros at the end of a numeral count for a power of ten. -/
theorem render_mul_pow {n : Nat} (h : 0 < n) (count : Nat) :
    render (n * 10 ^ count) = render n ++ List.replicate count '0' := by
  induction count with
  | zero => simp
  | succ count ih =>
    have hpow : n * 10 ^ (count + 1) = 10 * (n * 10 ^ count) + 0 := by
      rw [Nat.pow_succ]
      ring
    rw [hpow, render_shiftIn (Nat.mul_pos h (Nat.pow_pos (by decide))) (by decide), ih,
      List.append_assoc, List.replicate_succ']
    rfl

theorem length_render_mul_pow {n : Nat} (h : 0 < n) (count : Nat) :
    (render (n * 10 ^ count)).length = (render n).length + count := by
  rw [render_mul_pow h, List.length_append, List.length_replicate]

/-- A whole number below `2 ^ 53` has at most sixteen digits. -/
theorem length_render_le_sixteen {n count : Nat} (hpos : 0 < n) (h : n * 10 ^ count < 2 ^ 53) :
    (render n).length + count ≤ 16 := by
  rw [← length_render_mul_pow hpos]
  exact length_render_le (h.trans (by decide)) (by decide)

end Numeral

namespace Double

/-! ## Exactly the whole number -/

theorem ofInt_zero : ofInt 0 = zero false := by
  decide +kernel

theorem unitsPerOne_pos : 0 < unitsPerOne := by
  decide +kernel

/-- A number of at most 53 bits is rounded to itself, however many zeros stand behind it. -/
theorem round_mul_pow (negative : Bool) {n places : Nat} (hpos : 0 < n) (h : n < 2 ^ 53)
    (hplaces : 52 ≤ places ∧ places ≤ 2045) :
    ∃ mantissa exponent, ∃ hc : IsCanonical mantissa exponent,
      round negative (n * 2 ^ places) 1 = .finite negative mantissa exponent hc ∧
      mantissa * 2 ^ exponent = n * 2 ^ places := by
  have hlow : 2 ^ n.log2 ≤ n := Nat.log2_self_le hpos.ne'
  have hhigh : n < 2 ^ (n.log2 + 1) := Nat.lt_log2_self
  have hlog : n.log2 < 53 := (Nat.log2_lt hpos.ne').mpr h
  -- The leading bit is moved to the place where a mantissa has it.
  obtain ⟨shift, hshift⟩ : ∃ shift, n.log2 + shift = 52 := ⟨52 - n.log2, by omega⟩
  obtain ⟨exponent, rfl⟩ : ∃ exponent, places = shift + exponent :=
    ⟨places - shift, by omega⟩
  have hcanonical : IsCanonical (n * 2 ^ shift) exponent := by
    refine ⟨?_, .inl ?_, by omega⟩
    · calc n * 2 ^ shift
          < 2 ^ (n.log2 + 1) * 2 ^ shift :=
            Nat.mul_lt_mul_of_pos_right hhigh (Nat.pow_pos (by decide))
        _ = 2 ^ 53 := by rw [← Nat.pow_add, Nat.add_right_comm, hshift]
    · calc 2 ^ 52 = 2 ^ n.log2 * 2 ^ shift := by rw [← Nat.pow_add, hshift]
        _ ≤ n * 2 ^ shift := Nat.mul_le_mul_right _ hlow
  have hexact : n * 2 ^ shift * 2 ^ exponent = n * 2 ^ (shift + exponent) := by
    rw [Nat.mul_assoc, ← Nat.pow_add]
  refine ⟨_, _, hcanonical, ?_, hexact⟩
  rw [← hexact]
  exact round_units negative hcanonical

/-- A double holds a whole number below `2 ^ 53` exactly. -/
theorem round_whole (negative : Bool) {n : Nat} (hpos : 0 < n) (h : n < 2 ^ 53) :
    ∃ mantissa exponent, ∃ hc : IsCanonical mantissa exponent,
      round negative (n * unitsPerOne) 1 = .finite negative mantissa exponent hc ∧
      mantissa * 2 ^ exponent = n * unitsPerOne := by
  obtain ⟨places, hplaces, hunit⟩ := exists_unitsPerOne
  rw [hunit]
  exact round_mul_pow negative hpos h (by rw [hplaces]; decide)

theorem units_round_whole (negative : Bool) {n : Nat} (hpos : 0 < n) (h : n < 2 ^ 53) :
    (round negative (n * unitsPerOne) 1).units = n * unitsPerOne := by
  obtain ⟨mantissa, exponent, hc, hround, hexact⟩ := round_whole negative hpos h
  rw [hround]
  exact hexact

/-- Rounding does not go below a power of two that the number has reached. -/
theorem pow_le_units_round (negative : Bool) {num k : Nat} (h : 2 ^ k ≤ num) :
    (round negative num 1).isInfinite = true ∨ 2 ^ k ≤ (round negative num 1).units := by
  have hdouble (mantissa exponent : Nat) (h : 2 ^ k ≤ mantissa * 2 ^ exponent) :
      (ofParts negative mantissa exponent).isInfinite = true ∨
        2 ^ k ≤ (ofParts negative mantissa exponent).units := by
    unfold ofParts
    split
    · exact .inr h
    · exact .inl rfl
  have hne : num ≠ 0 := (Nat.pos_of_ne_zero (by simp)).trans_le h |>.ne'
  obtain ⟨hquotient, -⟩ := roundQuotient_bounds num (1 * Nat.pow 2 (num.log2 - 52))
  have hlow : 2 ^ (num.log2 - (num.log2 - 52)) ≤ num / 2 ^ (num.log2 - 52) := by
    rw [Nat.le_div_iff_mul_le (Nat.pow_pos (by decide)), ← Nat.pow_add,
      Nat.sub_add_cancel (Nat.sub_le _ _)]
    exact Nat.log2_self_le hne
  have hscaled : 2 ^ k ≤
      roundQuotient num (1 * Nat.pow 2 (num.log2 - 52)) * 2 ^ (num.log2 - 52) := by
    rw [Nat.one_mul, Nat.pow_eq] at hquotient ⊢
    calc 2 ^ k
        ≤ 2 ^ num.log2 := Nat.pow_le_pow_right (by decide) ((Nat.le_log2 hne).mpr h)
      _ = 2 ^ (num.log2 - (num.log2 - 52)) * 2 ^ (num.log2 - 52) := by
          rw [← Nat.pow_add, Nat.sub_add_cancel (Nat.sub_le _ _)]
      _ ≤ roundQuotient num (2 ^ (num.log2 - 52)) * 2 ^ (num.log2 - 52) :=
          Nat.mul_le_mul_right _ (hlow.trans hquotient)
  unfold round
  dsimp only
  rw [Nat.div_one]
  split
  next hcarry =>
    refine hdouble _ _ ?_
    rw [hcarry, Nat.pow_eq, ← Nat.pow_add] at hscaled
    rw [Nat.pow_eq, ← Nat.pow_add, Nat.add_comm _ 1, ← Nat.add_assoc]
    exact hscaled
  next => exact hdouble _ _ hscaled

/-- A whole number that is rounded to one below `2 ^ 53` lies below it itself. -/
theorem lt_of_units_round {negative : Bool} {n m : Nat} (h : n < 2 ^ 53)
    (hfinite : (round negative (m * unitsPerOne) 1).isInfinite = false)
    (hunits : (round negative (m * unitsPerOne) 1).units = n * unitsPerOne) : m < 2 ^ 53 := by
  by_contra hlarge
  obtain ⟨places, -, hunit⟩ := exists_unitsPerOne
  have hreached : 2 ^ (53 + places) ≤ m * unitsPerOne := by
    rw [Nat.pow_add, hunit]
    exact Nat.mul_le_mul_right _ (Nat.not_lt.mp hlarge)
  rcases pow_le_units_round negative hreached with hinfinite | hbelow
  · rw [hfinite] at hinfinite
    cases hinfinite
  · rw [hunits, Nat.pow_add, hunit] at hbelow
    exact absurd (Nat.le_of_mul_le_mul_right hbelow (Nat.pow_pos (by decide))) (Nat.not_le.mpr h)

end Double

/-! ## No other decimal -/

namespace Decimal

variable {negative sign : Bool} {n coefficient exponent : Nat}

/-- A decimal without a point, in range. -/
theorem toDouble_nat (hpos : 0 < coefficient)
    (hpoint : (Numeral.render coefficient).length + exponent ≤ 309) :
    toDouble ⟨sign, coefficient, exponent⟩ =
      .round sign (coefficient * 10 ^ exponent * Double.unitsPerOne) 1 := by
  unfold toDouble
  dsimp only
  rw [if_neg (by omega), if_neg (by omega), if_pos (Int.natCast_nonneg exponent),
    Int.toNat_natCast, Nat.pow_eq]

/-- A decimal that has more digits before its point than any double. -/
theorem isInfinite_toDouble (hpos : 0 < coefficient)
    (hpoint : 309 < (Numeral.render coefficient).length + exponent) :
    (toDouble ⟨sign, coefficient, exponent⟩).isInfinite = true := by
  unfold toDouble
  dsimp only
  rw [if_neg (by omega), if_pos (by omega)]
  rfl

/-- A decimal without a point that reads as a whole number below `2 ^ 53` is that number. -/
theorem eq_of_toDouble_eq (hpos : 0 < n) (h : n < 2 ^ 53)
    (hsame : toDouble ⟨sign, coefficient, exponent⟩ = .round negative (n * Double.unitsPerOne) 1) :
    coefficient * 10 ^ exponent = n := by
  have hunits : (toDouble ⟨sign, coefficient, exponent⟩).units = n * Double.unitsPerOne := by
    rw [hsame]
    exact Double.units_round_whole negative hpos h
  have hfinite : (toDouble ⟨sign, coefficient, exponent⟩).isInfinite = false := by
    obtain ⟨_, _, _, hround, -⟩ := Double.round_whole negative hpos h
    rw [hsame, hround]
    rfl
  rcases Nat.eq_zero_or_pos coefficient with rfl | hcoefficient
  · have hzero : toDouble ⟨sign, 0, exponent⟩ = .zero sign := by simp [toDouble]
    rw [hzero] at hunits
    exact absurd hunits.symm (Nat.mul_pos hpos Double.unitsPerOne_pos).ne'
  · have hpoint : (Numeral.render coefficient).length + exponent ≤ 309 := by
      by_contra hbeyond
      rw [isInfinite_toDouble hcoefficient (Nat.not_le.mp hbeyond)] at hfinite
      cases hfinite
    rw [toDouble_nat hcoefficient hpoint] at hunits hfinite
    have hvalue := Double.units_round_whole sign
      (Nat.mul_pos hcoefficient (Nat.pow_pos (by decide))) (Double.lt_of_units_round h hfinite hunits)
    exact Nat.eq_of_mul_eq_mul_right Double.unitsPerOne_pos (hvalue.symm.trans hunits)

end Decimal

/-! ## The fewest digits -/

namespace Double

/-- The first of the numbers in order that a search finds something at. -/
theorem findSome?_range {α : Type} {f : Nat → Option α} {i bound : Nat} {found : α}
    (hi : i < bound) (hbefore : ∀ j < i, f j = none) (hfound : f i = some found) :
    (List.range bound).findSome? f = some found := by
  obtain ⟨rest, rfl⟩ : ∃ rest, bound = i + (rest + 1) := Nat.exists_eq_add_of_lt hi
  rw [List.findSome?_eq_some_iff]
  refine ⟨List.range i, i, (List.range rest).map (i + 1 + ·), ?_, hfound, ?_⟩
  · rw [List.range_add, List.range_succ_eq_map, List.map_cons, List.map_map]
    congr 2
    refine List.map_congr_left fun j _ => ?_
    simp only [Function.comp_apply]
    omega
  · exact fun j hj => hbefore j (List.mem_range.mp hj)

/-- What is found is written, if there is no zero at its end to leave out. -/
theorem shortest_of_findSome? {x : Double} {tie : Tie} {d : Decimal}
    (hfound : ((List.range 17).findSome? fun i =>
      withDigits? x tie (pointPlace x.units) (i + 1)) = some d)
    (hlast : d.coefficient % 10 ≠ 0) : x.shortest tie = d := by
  have htrim (fuel : Nat) : Decimal.trimZeros fuel d.coefficient d.exponent =
      (d.coefficient, d.exponent) := by
    cases fuel with
    | zero => rfl
    | succ fuel => rw [Decimal.trimZeros, if_neg fun hzero => hlast hzero.2]
  unfold shortest
  dsimp only
  rw [hfound, Option.getD_some, htrim]

/-- Where the last digit stands is told by how many there are. -/
theorem exponent_of_withDigits? {x : Double} {tie : Tie} {point : Int} {count : Nat} {d : Decimal}
    (h : withDigits? x tie point count = some d) : d.exponent = point - count := by
  unfold withDigits? at h
  dsimp only at h
  cases hnearer : (neighbours tie x.units (point - count)).2 <;> rw [hnearer] at h
  all_goals
    obtain ⟨-, rfl | rfl⟩ := pick_spec h
    · rfl
    · rfl

/-- The neighbour of a multiple is the multiple itself. -/
theorem neighbours_multiple (tie : Tie) (coefficient exponent : Nat) :
    neighbours tie (coefficient * 10 ^ exponent * unitsPerOne) exponent = (coefficient, false) := by
  have hnegative : ¬ (exponent : Int) < 0 := by omega
  have hden : 0 < unitsPerOne * 10 ^ exponent :=
    Nat.mul_pos unitsPerOne_pos (Nat.pow_pos (by decide))
  have hnum : coefficient * 10 ^ exponent * unitsPerOne =
      coefficient * (unitsPerOne * 10 ^ exponent) := by ring
  unfold neighbours
  dsimp only
  rw [if_neg hnegative, if_neg hnegative, Int.toNat_natCast, Nat.pow_eq, hnum,
    Nat.mul_div_cancel _ hden, Nat.mul_mod_left]
  simp [hden.ne]

variable {coefficient exponent : Nat} (hlast : coefficient % 10 ≠ 0)
  (h : coefficient * 10 ^ exponent < 2 ^ 53)

include hlast h

/-- No fewer digits read back than a whole number has up to the last one that is not zero. -/
theorem withDigits?_fewer (negative : Bool) (tie : Tie) {count : Nat}
    (hcount : count < (Numeral.render coefficient).length) :
    withDigits? (round negative (coefficient * 10 ^ exponent * unitsPerOne) 1) tie
      ((Numeral.render coefficient).length + exponent : Nat) count = none := by
  have hpos : 0 < coefficient := by omega
  rw [Option.eq_none_iff_forall_ne_some]
  intro d hd
  obtain ⟨hback, -⟩ := withDigits?_spec hd
  obtain ⟨fewer, hfewer⟩ : ∃ fewer, (Numeral.render coefficient).length = count + (fewer + 1) :=
    Nat.exists_eq_add_of_lt hcount
  have hexponent : d.exponent = (exponent + (fewer + 1) : Nat) := by
    rw [exponent_of_withDigits? hd]
    omega
  obtain ⟨sign, digits, _⟩ := d
  cases hexponent
  have hvalue : digits * 10 ^ (exponent + (fewer + 1)) = coefficient * 10 ^ exponent :=
    Decimal.eq_of_toDouble_eq (Nat.mul_pos hpos (Nat.pow_pos (by decide))) h hback
  have hmultiple : coefficient = 10 * (digits * 10 ^ fewer) := by
    refine Nat.eq_of_mul_eq_mul_right (Nat.pow_pos (by decide : 0 < 10)) (hvalue.symm.trans ?_)
    ring
  omega

/-- The digits of a whole number up to the last one that is not zero read back. -/
theorem withDigits?_enough (negative : Bool) (tie : Tie) :
    withDigits? (round negative (coefficient * 10 ^ exponent * unitsPerOne) 1) tie
      ((Numeral.render coefficient).length + exponent : Nat) (Numeral.render coefficient).length =
      some ⟨negative, coefficient, exponent⟩ := by
  have hpos : 0 < coefficient := by omega
  have hwhole : 0 < coefficient * 10 ^ exponent := Nat.mul_pos hpos (Nat.pow_pos (by decide))
  have hsign : (round negative (coefficient * 10 ^ exponent * unitsPerOne) 1).isNegative =
      negative := by
    obtain ⟨_, _, _, hround, -⟩ := round_whole negative hwhole h
    rw [hround]
    rfl
  have hplace : (((Numeral.render coefficient).length + exponent : Nat) : Int) -
      (Numeral.render coefficient).length = exponent := by omega
  have hplaces := Numeral.length_render_le_sixteen hpos h
  unfold withDigits?
  dsimp only
  rw [hplace, units_round_whole negative hwhole h, neighbours_multiple, hsign]
  exact if_pos (Decimal.toDouble_nat hpos (by omega))

omit hlast in
theorem pointPlace_whole (hpos : 0 < coefficient) (negative : Bool) :
    pointPlace (round negative (coefficient * 10 ^ exponent * unitsPerOne) 1).units =
      ((Numeral.render coefficient).length + exponent : Nat) := by
  have hwhole : 0 < coefficient * 10 ^ exponent := Nat.mul_pos hpos (Nat.pow_pos (by decide))
  rw [units_round_whole negative hwhole h, pointPlace, if_pos (Nat.le_mul_of_pos_left _ hwhole),
    Nat.mul_div_cancel _ unitsPerOne_pos, Numeral.length_render_mul_pow hpos]

/-- **The digits that are written of a whole number are its own up to the last one that is not
zero.** -/
theorem shortest_whole (negative : Bool) (tie : Tie) :
    (round negative (coefficient * 10 ^ exponent * unitsPerOne) 1).shortest tie =
      ⟨negative, coefficient, exponent⟩ := by
  have hpos : 0 < coefficient := by omega
  have hdigits := Numeral.length_render_pos coefficient
  have hplaces := Numeral.length_render_le_sixteen hpos h
  refine shortest_of_findSome? ?_ hlast
  rw [pointPlace_whole h hpos]
  refine findSome?_range (show (Numeral.render coefficient).length - 1 < 17 by omega)
    (fun j hj => withDigits?_fewer hlast h negative tie (by omega)) ?_
  rw [Nat.sub_add_cancel hdigits]
  exact withDigits?_enough hlast h negative tie

end Double

namespace NumberStyle

variable {style : NumberStyle} (hend : style.wholeEnd = "")

include hend

/-- Digits that end before their point are followed by zeros. -/
theorem positionally_whole {digits : List Char} (hdigits : 0 < digits.length) (zeros : Nat) :
    style.positionally digits ((digits.length + zeros : Nat) : Int) =
      digits ++ List.replicate zeros '0' := by
  have hplace : ¬ ((digits.length + zeros : Nat) : Int) ≤ 0 := by omega
  rw [positionally, if_neg hplace, Int.toNat_natCast, if_pos (Nat.le_add_right _ _),
    Nat.add_sub_cancel_left, hend, String.toList_empty, List.append_nil]

/-- **A whole number below `2 ^ 53` is written as its numeral**, be it held as a double, where no
exponent is written up to sixteen digits and nothing behind them. -/
theorem render_ofInt
    (hpositional : ∀ place : Nat, 0 < place → place ≤ 16 → style.positional place = true)
    {i : Int} (h : i.natAbs < 2 ^ 53) : style.render (.ofInt i) = Numeral.intText i := by
  rcases Nat.eq_zero_or_pos i.natAbs with hzero | hpos
  · obtain rfl : i = 0 := by omega
    have htext : Numeral.intText 0 = "0" := by
      rw [Numeral.intText, if_neg (by decide), Numeral.text, Int.natAbs_zero,
        Numeral.render_of_lt (by decide)]
      rfl
    rw [Double.ofInt_zero, Double.zero, render, if_pos rfl, hend, htext]
    rfl
  obtain ⟨exponent, coefficient, hlast, hnumber⟩ :=
    Nat.exists_eq_pow_mul_and_not_dvd hpos.ne' 10 (by decide)
  rw [Nat.dvd_iff_mod_eq_zero] at hlast
  rw [Nat.mul_comm] at hnumber
  have hcoefficient : 0 < coefficient := by omega
  rw [hnumber] at h hpos
  obtain ⟨mantissa, power, hc, hround, hexact⟩ := Double.round_whole (decide (i < 0)) hpos h
  have hmantissa : mantissa ≠ 0 := by
    rintro rfl
    rw [Nat.zero_mul] at hexact
    exact absurd hexact.symm (Nat.mul_pos hpos Double.unitsPerOne_pos).ne'
  have hshortest := Double.shortest_whole hlast h (decide (i < 0)) style.tie
  have hdigits := Numeral.length_render_pos coefficient
  have hplaces := Numeral.length_render_le_sixteen hcoefficient h
  rw [Double.ofInt, hnumber, hround, render, if_neg hmantissa]
  rw [hround] at hshortest
  dsimp only
  rw [hshortest, ← Nat.cast_add, hpositional _ (by omega) hplaces, if_pos rfl,
    positionally_whole hend hdigits, ← Numeral.render_mul_pow hcoefficient, ← hnumber,
    Numeral.intText, Numeral.text]
  by_cases hnegative : i < 0
  · simp [hnegative]
  · simp [hnegative]

end NumberStyle

end Outreach
