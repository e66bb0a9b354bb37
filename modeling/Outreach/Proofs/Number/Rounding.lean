import Outreach.Number.Decimal
import Outreach.Proofs.Number.Numeral

/-!
# Doubles read back from their digits

Rounding depends on a quotient only, not on the two numbers that it is a quotient of, and it loses
nothing of a double (`Double.round_mul`, `Double.round_units`). So a decimal may trade zeros at its
end for a larger exponent, and the digits that are written of a double, be they the fewest or all of
them, read back as the double itself (`Double.toDouble_shortest`). Rounding always gives a number, and
one in range where the quotient is.
-/

namespace Outreach

namespace Double

/-! ## Rounding -/

theorem roundQuotient_mul (num den : Nat) {k : Nat} (hk : 0 < k) :
    roundQuotient (num * k) (den * k) = roundQuotient num den := by
  have hdiv : num * k / (den * k) = num / den := Nat.mul_div_mul_right num den hk
  have hmod : num * k % (den * k) = num % den * k := Nat.mul_mod_mul_right k num den
  have htwice : 2 * (num % den * k) = 2 * (num % den) * k := (Nat.mul_assoc 2 _ k).symm
  have hlt : 2 * (num % den) * k < den * k ↔ 2 * (num % den) < den := Nat.mul_lt_mul_right hk
  have heq : 2 * (num % den) * k = den * k ↔ 2 * (num % den) = den :=
    Nat.mul_right_cancel_iff hk
  unfold roundQuotient
  dsimp only
  rw [hdiv, hmod, htwice]
  simp only [hlt, heq]

/-- Rounding depends on the quotient only. -/
theorem round_mul (negative : Bool) (num den : Nat) {k : Nat} (hk : 0 < k) :
    round negative (num * k) (den * k) = round negative num den := by
  have hdiv : num * k / (den * k) = num / den := Nat.mul_div_mul_right num den hk
  unfold round
  dsimp only
  rw [hdiv, Nat.mul_right_comm den k, roundQuotient_mul _ _ hk]

theorem roundQuotient_mul_self (q : Nat) {den : Nat} (hden : 0 < den) :
    roundQuotient (q * den) den = q := by
  unfold roundQuotient
  dsimp only
  rw [Nat.mul_div_cancel q hden, Nat.mul_mod_left]
  simp [hden]

/-- The exponent of a double can be told from its magnitude. -/
theorem log2_mul_pow {mantissa exponent : Nat} (h : IsCanonical mantissa exponent) :
    (mantissa * 2 ^ exponent).log2 - 52 = exponent := by
  obtain ⟨hbelow, hleading, -⟩ := h
  rw [Nat.pow_eq] at hbelow hleading
  rcases Nat.eq_zero_or_pos mantissa with rfl | hpos
  · have hexponent : exponent = 0 := hleading.resolve_left (by decide)
    simp [hexponent]
  have hunits : mantissa * 2 ^ exponent ≠ 0 :=
    Nat.mul_ne_zero (Nat.pos_iff_ne_zero.mp hpos) (Nat.pow_pos (by decide)).ne'
  have hlog : (mantissa * 2 ^ exponent).log2 < 53 + exponent := by
    rw [Nat.log2_lt hunits, Nat.pow_add]
    exact Nat.mul_lt_mul_of_pos_right hbelow (Nat.pow_pos (by decide))
  rcases hleading with hleading | rfl
  · have hle : 52 + exponent ≤ (mantissa * 2 ^ exponent).log2 := by
      rw [Nat.le_log2 hunits, Nat.pow_add]
      exact Nat.mul_le_mul_right _ hleading
    omega
  · omega

/-- Rounding loses nothing of a double. -/
theorem round_units (negative : Bool) {mantissa exponent : Nat} (h : IsCanonical mantissa exponent) :
    round negative (mantissa * 2 ^ exponent) 1 = .finite negative mantissa exponent h := by
  have hbelow : mantissa ≠ Nat.pow 2 53 := Nat.ne_of_lt h.1
  have hpow : 0 < 2 ^ exponent := Nat.pow_pos (by decide)
  unfold round
  dsimp only
  rw [Nat.div_one, log2_mul_pow h, Nat.one_mul, Nat.pow_eq, roundQuotient_mul_self _ hpow,
    if_neg hbelow, ofParts, dif_pos h]

end Double

namespace Decimal

/-! ## Zeros at the end of a coefficient -/

variable (negative : Bool) (coefficient : Nat) (exponent : Int)

/-- A zero at the end of a coefficient counts as one more in the exponent. -/
theorem toDouble_mul_ten :
    toDouble ⟨negative, 10 * coefficient, exponent⟩ =
      toDouble ⟨negative, coefficient, exponent + 1⟩ := by
  rcases Nat.eq_zero_or_pos coefficient with rfl | hpos
  · simp [toDouble]
  have hpoint : ((Numeral.render (10 * coefficient)).length : Int) + exponent =
      (Numeral.render coefficient).length + (exponent + 1) := by
    rw [Numeral.length_render_mul_ten hpos]
    omega
  have hzero : 10 * coefficient = 0 ↔ coefficient = 0 := by omega
  unfold toDouble
  dsimp only
  -- The unit is a huge power of two, which nothing here may look into.
  generalize Double.unitsPerOne = unit
  rw [hpoint]
  simp only [hzero]
  split
  next => rfl
  next =>
    split
    next => rfl
    next =>
      -- Either both exponents leave a power of ten in the denominator, or only one does, or none.
      rcases Int.lt_trichotomy exponent (-1) with hlt | rfl | hgt
      · obtain ⟨k, rfl⟩ : ∃ k : Nat, exponent = -(k + 2 : Nat) :=
          ⟨(-exponent - 2).toNat, by omega⟩
        have hfiner : (-(-((k + 2 : Nat) : Int))).toNat = k + 1 + 1 := by omega
        have hcoarser : (-(-((k + 2 : Nat) : Int) + 1)).toNat = k + 1 := by omega
        have hnum : 10 * coefficient * unit = coefficient * unit * 10 := by ring
        rw [if_neg (by omega), if_neg (by omega), hfiner, hcoarser, Nat.pow_eq, Nat.pow_eq,
          Nat.pow_succ, hnum, Double.round_mul _ _ _ (by decide)]
      · have hnum : 10 * coefficient * unit = coefficient * unit * 10 := by ring
        rw [if_neg (by decide), if_pos (by decide), hnum]
        exact (Double.round_mul negative (coefficient * unit) 1 (by decide)).trans
          (by simp)
      · obtain ⟨k, rfl⟩ := Int.eq_ofNat_of_zero_le (show 0 ≤ exponent by omega)
        have hfiner : ((k : Int) + 1).toNat = k + 1 := by omega
        have hnum : 10 * coefficient * 10 ^ k * unit = coefficient * 10 ^ (k + 1) * unit := by
          rw [Nat.pow_succ]
          ring
        rw [if_pos (by omega), if_pos (by omega), hfiner, Int.toNat_natCast, Nat.pow_eq, Nat.pow_eq,
          hnum]

/-- A decimal with a point among its digits or before them. -/
theorem toDouble_neg {coefficient places : Nat} (hcoefficient : 0 < coefficient) (hplaces : 0 < places)
    (hpoint : -323 ≤ ((Numeral.render coefficient).length : Int) - places ∧
      ((Numeral.render coefficient).length : Int) - places ≤ 309) :
    toDouble ⟨negative, coefficient, -(places : Int)⟩ =
      .round negative (coefficient * Double.unitsPerOne) (10 ^ places) := by
  unfold toDouble
  dsimp only
  rw [if_neg (by omega), if_neg (by omega), if_neg (by omega), Int.neg_neg, Int.toNat_natCast,
    Nat.pow_eq]

/-- Zeros at the end of a coefficient count as more in the exponent. -/
theorem toDouble_mul_pow (count : Nat) :
    toDouble ⟨negative, coefficient * 10 ^ count, exponent⟩ =
      toDouble ⟨negative, coefficient, exponent + count⟩ := by
  induction count generalizing exponent with
  | zero => simp
  | succ count ih =>
    have hpow : coefficient * 10 ^ (count + 1) = 10 * (coefficient * 10 ^ count) := by
      rw [Nat.pow_succ]
      ring
    rw [hpow, toDouble_mul_ten, ih]
    congr 2
    omega

/-- Trimming changes the form of a decimal only. -/
theorem toDouble_trimZeros (fuel : Nat) :
    toDouble ⟨negative, (trimZeros fuel coefficient exponent).1,
      (trimZeros fuel coefficient exponent).2⟩ = toDouble ⟨negative, coefficient, exponent⟩ := by
  induction fuel generalizing coefficient exponent with
  | zero => rfl
  | succ fuel ih =>
    rw [trimZeros]
    split
    next hzero =>
      have hten : 10 * (coefficient / 10) = coefficient := by omega
      rw [ih, ← toDouble_mul_ten, hten]
    next => rfl

end Decimal

namespace Double

/-! ## The digits of a double -/

theorem pick_spec {x : Double} {first second d : Decimal}
    (h : (if first.toDouble = x then some first
      else if second.toDouble = x then some second else none) = some d) :
    d.toDouble = x ∧ (d = first ∨ d = second) := by
  split at h
  next hfirst =>
    cases h
    exact ⟨hfirst, .inl rfl⟩
  next =>
    split at h
    next hsecond =>
      cases h
      exact ⟨hsecond, .inr rfl⟩
    next => cases h

/-- Digits are taken only if they read back, and with the sign of what they are the digits of. -/
theorem withDigits?_spec {x : Double} {tie : Tie} {point : Int} {count : Nat} {d : Decimal}
    (h : withDigits? x tie point count = some d) : d.toDouble = x ∧ d.negative = x.isNegative := by
  unfold withDigits? at h
  dsimp only at h
  cases hnearer : (neighbours tie x.units (point - count)).2 <;> rw [hnearer] at h
  all_goals
    obtain ⟨hback, rfl | rfl⟩ := pick_spec h
    · exact ⟨hback, rfl⟩
    · exact ⟨hback, rfl⟩

variable {negative : Bool} {mantissa exponent : Nat} (h : IsCanonical mantissa exponent)

theorem units_lt {top : Nat} (htop : exponent ≤ top) :
    units (.finite negative mantissa exponent h) < 2 ^ (53 + top) := by
  have hbelow : mantissa < 2 ^ 53 := h.1
  calc mantissa * 2 ^ exponent
      < 2 ^ 53 * 2 ^ exponent := Nat.mul_lt_mul_of_pos_right hbelow (Nat.pow_pos (by decide))
    _ = 2 ^ (53 + exponent) := (Nat.pow_add _ _ _).symm
    _ ≤ 2 ^ (53 + top) := Nat.pow_le_pow_right (by decide) (by omega)

variable (hpos : 0 < mantissa)

include hpos

/-- All the digits of a double read back as the double. -/
theorem toDouble_exactDecimal :
    (exactDecimal (.finite negative mantissa exponent h)).toDouble =
      .finite negative mantissa exponent h := by
  have hunits : 0 < units (.finite negative mantissa exponent h) :=
    Nat.mul_pos hpos (Nat.pow_pos (by decide))
  -- The powers get names, as none of them is to be evaluated where its value does not matter.
  obtain ⟨places, hplaces⟩ : ∃ places : Nat, places = 1074 := ⟨_, rfl⟩
  obtain ⟨five, hfive⟩ : ∃ five, five = Nat.pow 5 1074 := ⟨_, rfl⟩
  obtain ⟨top, htop⟩ : ∃ top, top = 2 ^ (53 + 2045) := ⟨_, rfl⟩
  obtain ⟨most, hmost⟩ : ∃ most, most = 1383 := ⟨_, rfl⟩
  obtain ⟨least, hleast⟩ : ∃ least, least = 750 := ⟨_, rfl⟩
  have hfive_pos : 0 < five := by rw [hfive]; decide +kernel
  have hten : five * unitsPerOne = 10 ^ places := by rw [hfive, hplaces]; decide +kernel
  have hlow : 10 ^ least ≤ five := by rw [hleast, hfive]; decide +kernel
  have hhigh : top * five ≤ 10 ^ most := by rw [htop, hfive, hmost]; decide +kernel
  have hlt : units (.finite negative mantissa exponent h) < top := htop ▸ units_lt h h.2.2
  have hexact : exactDecimal (.finite negative mantissa exponent h) =
      ⟨negative, units (.finite negative mantissa exponent h) * five, -(places : Int)⟩ := by
    rw [hfive, hplaces]
    rfl
  have hcoefficient : 0 < units (.finite negative mantissa exponent h) * five :=
    Nat.mul_pos hunits hfive_pos
  have hlong := Numeral.le_length_render (Nat.le_trans hlow (Nat.le_mul_of_pos_left five hunits))
  have hshort := Numeral.length_render_le
    (Nat.lt_of_lt_of_le (Nat.mul_lt_mul_of_pos_right hlt hfive_pos) hhigh) (by omega)
  rw [hexact, Decimal.toDouble_neg negative (by omega) (by omega) (by omega), Nat.mul_assoc, hten]
  have hround := round_mul negative (units (.finite negative mantissa exponent h)) 1
    (show 0 < 10 ^ places from Nat.pow_pos (by decide))
  rw [Nat.one_mul] at hround
  exact hround.trans (round_units negative h)

/-- **The digits that are written of a double read back as the double.** -/
theorem toDouble_shortest (tie : Tie) :
    let x : Double := .finite negative mantissa exponent h
    (x.shortest tie).toDouble = x ∧ (x.shortest tie).negative = negative ∧
      0 < (x.shortest tie).coefficient := by
  intro x
  generalize hfound : ((List.range 17).findSome? fun i =>
    withDigits? x tie (pointPlace x.units) (i + 1)).getD (exactDecimal x) = found
  have hspec : found.toDouble = x ∧ found.negative = negative := by
    subst hfound
    cases hsome : (List.range 17).findSome? fun i =>
      withDigits? x tie (pointPlace x.units) (i + 1) with
    | none => exact ⟨toDouble_exactDecimal h hpos, rfl⟩
    | some d =>
      obtain ⟨i, -, hi⟩ := List.exists_of_findSome?_eq_some hsome
      exact withDigits?_spec hi
  obtain ⟨hback, hnegative⟩ := hspec
  have hshortest : x.shortest tie = ⟨found.negative,
      (Decimal.trimZeros (Numeral.render found.coefficient).length found.coefficient
        found.exponent).1,
      (Decimal.trimZeros (Numeral.render found.coefficient).length found.coefficient
        found.exponent).2⟩ := by
    subst hfound
    rfl
  have htrimmed : (x.shortest tie).toDouble = x := by
    rw [hshortest, Decimal.toDouble_trimZeros]
    exact hback
  refine ⟨htrimmed, by rw [hshortest]; exact hnegative, Nat.pos_of_ne_zero fun hzero => ?_⟩
  rw [Decimal.toDouble, if_pos (.inl hzero)] at htrimmed
  generalize (x.shortest tie).negative = sign at htrimmed
  have hmantissa : 0 = mantissa := (finite.inj htrimmed).2.1
  omega

end Double

/-! ## What stays in range -/

namespace Double

variable {num den : Nat} {negative : Bool}

theorem isNaN_ofParts (negative : Bool) (mantissa exponent : Nat) :
    (ofParts negative mantissa exponent).isNaN = false := by
  unfold ofParts
  split <;> rfl

/-- Rounding gives a number. -/
theorem isNaN_round (negative : Bool) (num den : Nat) : (round negative num den).isNaN = false := by
  unfold round
  dsimp only
  split <;> exact isNaN_ofParts _ _ _

theorem isInfinite_ofParts {mantissa exponent : Nat} (h : IsCanonical mantissa exponent) :
    (ofParts negative mantissa exponent).isInfinite = false := by
  rw [ofParts, dif_pos h]
  rfl

theorem roundQuotient_bounds (num den : Nat) :
    num / den ≤ roundQuotient num den ∧ roundQuotient num den ≤ num / den + 1 := by
  unfold roundQuotient
  dsimp only
  split <;> omega

/-- The mantissa that a quotient is rounded to has 53 bits, or is the next number after these. -/
theorem roundQuotient_scaled (num den : Nat) :
    let exponent := (num / den).log2 - 52
    let mantissa := roundQuotient num (den * 2 ^ exponent)
    mantissa ≤ 2 ^ 53 ∧ (2 ^ 52 ≤ mantissa ∨ exponent = 0) := by
  intro exponent mantissa
  have hquotient : num / (den * 2 ^ exponent) = num / den / 2 ^ exponent :=
    (Nat.div_div_eq_div_mul num den _).symm
  obtain ⟨hlow, hhigh⟩ := roundQuotient_bounds num (den * 2 ^ exponent)
  rw [hquotient] at hlow hhigh
  constructor
  · have hbelow : num / den < 2 ^ 53 * 2 ^ exponent := by
      rw [← Nat.pow_add]
      exact Nat.lt_log2_self.trans_le (Nat.pow_le_pow_right (by decide) (by omega))
    have hscaled : num / den / 2 ^ exponent < 2 ^ 53 :=
      (Nat.div_lt_iff_lt_mul (Nat.pow_pos (by decide))).mpr hbelow
    omega
  · rcases Nat.eq_zero_or_pos exponent with hzero | hpos
    · exact .inr hzero
    · have hne : num / den ≠ 0 := by
        intro hzero
        simp [exponent, hzero] at hpos
      have habove : 2 ^ 52 * 2 ^ exponent ≤ num / den := by
        rw [← Nat.pow_add]
        exact (Nat.pow_le_pow_right (by decide) (by omega)).trans (Nat.log2_self_le hne)
      have hscaled : 2 ^ 52 ≤ num / den / 2 ^ exponent :=
        (Nat.le_div_iff_mul_le (Nat.pow_pos (by decide))).mpr habove
      exact .inl (hscaled.trans hlow)

/-- Rounding stays in range where the quotient does. -/
theorem isInfinite_round (h : (num / den).log2 ≤ 2096) :
    (round negative num den).isInfinite = false := by
  obtain ⟨hhigh, hlow⟩ := roundQuotient_scaled num den
  have hexponent : (num / den).log2 - 52 ≤ 2044 := by omega
  unfold round
  dsimp only
  simp only [Nat.pow_eq]
  split
  next => exact isInfinite_ofParts ⟨by decide, .inl (Nat.le_refl _), by omega⟩
  next hne => exact isInfinite_ofParts ⟨Nat.lt_of_le_of_ne hhigh hne, hlow, by omega⟩

theorem log2_mul_pow_le {n bits : Nat} (h : n < 2 ^ bits) (places : Nat) :
    (n * Nat.pow 2 places).log2 ≤ bits + places := by
  rw [Nat.pow_eq]
  rcases Nat.eq_zero_or_pos (n * 2 ^ places) with hzero | hpos
  · simp [hzero]
  · refine ((Nat.log2_lt hpos.ne').mpr ?_).le
    rw [Nat.pow_add]
    exact Nat.mul_lt_mul_of_pos_right h (Nat.pow_pos (by decide))

/-- The exponent of the unit under a name, as the power is not to be evaluated. -/
theorem exists_unitsPerOne : ∃ places : Nat, places = 1074 ∧ unitsPerOne = 2 ^ places :=
  ⟨_, rfl, by decide +kernel⟩

/-- A whole number of 64 bits is in range. -/
theorem isInfinite_ofInt {i : Int} (h : i.natAbs < 2 ^ 64) : (ofInt i).isInfinite = false := by
  refine isInfinite_round ?_
  rw [Nat.div_one]
  obtain ⟨places, hplaces, hunits⟩ := exists_unitsPerOne
  have hbound := log2_mul_pow_le h places
  rw [Nat.pow_eq] at hbound
  rw [hunits]
  omega

end Double

theorem Decimal.isNaN_toDouble (d : Decimal) : d.toDouble.isNaN = false := by
  unfold toDouble
  dsimp only
  split
  · rfl
  · split
    · rfl
    · split <;> exact Double.isNaN_round _ _ _

end Outreach
