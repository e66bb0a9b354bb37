import Outreach.Proofs.Json.WrittenNumber
import Outreach.Proofs.Number.Whole
import Outreach.Proofs.Variables.NumberText

/-!
# Numbers survive as texts

A number that is written for people to read is a decimal: digits with zeros before or behind them,
with a point among them, or with an exponent (`NumberStyle.isWritten_render`). A decimal counts as
the number it reads as, with white space around it or without (`Coercion.ofText_of_trims`). So a
number that was turned into a text counts as the number it was
(`Coercion.equals_operandNumber_numberText`).
-/

namespace Outreach

/-- A text that reads as the double nearest to a decimal. -/
def Decimal.IsWritten (d : Decimal) (cs : List Char) : Prop :=
  ∃ t : DecimalText, t.written = cs ∧ t.value.toDouble = d.toDouble

/-- A text that reads as a double, but for the sign of a zero. -/
def Double.IsWritten (x : Double) (cs : List Char) : Prop :=
  ∃ t : DecimalText, t.written = cs ∧ t.value.toDouble.equals x = true

namespace Double

theorem equals_self {x : Double} (h : x.isNaN = false) : x.equals x = true := by
  cases x with
  | nan => cases h
  | infinite => simp only [equals, position, beq_self_eq_true]
  | finite => simp only [equals, position, beq_self_eq_true]

/-- A double is written as the decimal that it is nearest to. -/
theorem IsWritten.of_decimal {d : Decimal} {cs : List Char} (h : d.IsWritten cs) :
    d.toDouble.IsWritten cs := by
  obtain ⟨t, hwritten, hvalue⟩ := h
  exact ⟨t, hwritten, hvalue ▸ equals_self (Decimal.isNaN_toDouble _)⟩

end Double

/-! ## Styles -/

namespace NumberStyle

variable (negative : Bool) (coefficient : Nat)

/-- Digits with a point and zeros before them. -/
theorem isWritten_before (zeros : Nat) :
    Decimal.IsWritten ⟨negative, coefficient,
        -((zeros + (Numeral.render coefficient).length : Nat) : Int)⟩
      ((Sign.ofNegative negative).written ++
        ('0' :: '.' :: List.replicate zeros '0' ++ Numeral.render coefficient)) := by
  have hnumeral : Numeral.isNumeral
      ('0' :: (List.replicate zeros '0' ++ Numeral.render coefficient)) = true := by
    simp [Numeral.isNumeral, Numeral.all_isDigit_render, Numeral.isDigit_zero]
  have hvalue : Numeral.read ('0' :: (List.replicate zeros '0' ++ Numeral.render coefficient)) =
      coefficient :=
    (Numeral.read_zeros_append (zeros + 1) _).trans (Numeral.read_render coefficient)
  refine ⟨⟨.ofNegative negative, ['0'],
    some (List.replicate zeros '0' ++ Numeral.render coefficient), none, hnumeral⟩, ?_, ?_⟩
  · simp [DecimalText.written]
  · simp [DecimalText.value, hvalue]

/-- Digits with zeros behind them. -/
theorem isWritten_behind (zeros : Nat) :
    Decimal.IsWritten ⟨negative, coefficient, zeros⟩
      ((Sign.ofNegative negative).written ++
        (Numeral.render coefficient ++ List.replicate zeros '0')) := by
  have hnumeral : Numeral.isNumeral
      (Numeral.render coefficient ++ List.replicate zeros '0' ++ []) = true := by
    simp [Numeral.isNumeral, Numeral.all_isDigit_render, Numeral.isDigit_zero,
      Numeral.render_ne_nil]
  have hvalue : Numeral.read (Numeral.render coefficient ++ List.replicate zeros '0') =
      coefficient * 10 ^ zeros := by
    rw [Numeral.read_append_zeros, Numeral.read_render]
  refine ⟨⟨.ofNegative negative, Numeral.render coefficient ++ List.replicate zeros '0', none, none,
    hnumeral⟩, ?_, ?_⟩
  · simp [DecimalText.written]
  · simp [DecimalText.value, hvalue, Decimal.toDouble_mul_pow]

/-- Digits with a point among them. -/
theorem isWritten_among {place : Nat} (hplace : place < (Numeral.render coefficient).length) :
    Decimal.IsWritten ⟨negative, coefficient, place - (Numeral.render coefficient).length⟩
      ((Sign.ofNegative negative).written ++ ((Numeral.render coefficient).take place ++
        '.' :: (Numeral.render coefficient).drop place)) := by
  have hdigits := List.take_append_drop place (Numeral.render coefficient)
  have hnumeral : Numeral.isNumeral ((Numeral.render coefficient).take place ++
      (Numeral.render coefficient).drop place) = true :=
    hdigits.symm ▸ Numeral.isNumeral_render coefficient
  have hexponent : 0 - (((Numeral.render coefficient).drop place).length : Int) =
      place - (Numeral.render coefficient).length := by
    rw [List.length_drop]
    omega
  refine ⟨⟨.ofNegative negative, (Numeral.render coefficient).take place,
    some ((Numeral.render coefficient).drop place), none, hnumeral⟩, ?_, ?_⟩
  · simp [DecimalText.written]
  · simp only [DecimalText.value, Option.getD_some, Option.elim, hdigits, hexponent,
      Numeral.read_render, Sign.isMinus_ofNegative]

/-- Digits with a point before, behind or among them. -/
theorem isWritten_positionally {style : NumberStyle} (hend : style.wholeEnd = "") (exponent : Int) :
    Decimal.IsWritten ⟨negative, coefficient, exponent⟩ ((Sign.ofNegative negative).written ++
      style.positionally (Numeral.render coefficient)
        ((Numeral.render coefficient).length + exponent)) := by
  have hlength := Numeral.length_render_pos coefficient
  -- All digits stand before the point exactly if the exponent is not negative.
  rcases Int.lt_or_le exponent 0 with hnegative | hwhole
  · generalize hplace : ((Numeral.render coefficient).length : Int) + exponent = place
    unfold positionally
    split
    next hbefore =>
      have h := isWritten_before negative coefficient (-place).toNat
      have hexponent : -(((-place).toNat + (Numeral.render coefficient).length : Nat) : Int) =
          exponent := by omega
      rwa [hexponent] at h
    next hpositive =>
      have hlast : place.toNat < (Numeral.render coefficient).length := by omega
      have h := isWritten_among negative coefficient hlast
      have hexponent : (place.toNat : Int) - (Numeral.render coefficient).length = exponent := by
        omega
      rw [if_neg (by omega)]
      rwa [hexponent] at h
  · obtain ⟨zeros, rfl⟩ := Int.eq_ofNat_of_zero_le hwhole
    rw [← Nat.cast_add, positionally_whole hend hlength]
    exact isWritten_behind negative coefficient zeros

/-- The exponent of a style. -/
def exponentText (style : NumberStyle) (power : Int) : ExponentText where
  upper := false
  sign := if power < 0 then .minus else if style.plus then .plus else .absent
  digits := Numeral.render power.natAbs
  isNumeral := Numeral.isNumeral_render power.natAbs

theorem written_exponentText (style : NumberStyle) (power : Int) :
    (style.exponentText power).written = 'e' ::
      ((if power < 0 then ['-'] else if style.plus then ['+'] else []) ++
        Numeral.render power.natAbs) := by
  unfold exponentText
  split
  next => rfl
  next => cases style.plus <;> rfl

theorem value_exponentText (style : NumberStyle) (power : Int) :
    (style.exponentText power).value = power := by
  have hminus : (style.exponentText power).sign.isMinus = decide (power < 0) := by
    unfold exponentText
    split
    next hnegative => exact (decide_eq_true hnegative).symm
    next hpositive =>
      rw [decide_eq_false hpositive]
      cases style.plus <;> rfl
  have hread : Numeral.read (style.exponentText power).digits = power.natAbs :=
    Numeral.read_render _
  rw [ExponentText.value, hminus, hread]
  simp only [decide_eq_true_eq]
  split <;> omega

/-- Digits with an exponent. -/
theorem isWritten_scientifically (style : NumberStyle) (exponent : Int) :
    Decimal.IsWritten ⟨negative, coefficient, exponent⟩ ((Sign.ofNegative negative).written ++
      style.scientifically (Numeral.render coefficient)
        ((Numeral.render coefficient).length + exponent)) := by
  have hlength := Numeral.length_render_pos coefficient
  have hnumeral := Numeral.isNumeral_render coefficient
  have hread := Numeral.read_render coefficient
  unfold scientifically
  generalize Numeral.render coefficient = digits at *
  generalize hpower : (digits.length : Int) + exponent - 1 = power
  have hfraction : (if digits.length ≤ 1 then none else some (digits.drop 1)).getD [] =
      digits.drop 1 := by
    split
    next hshort => exact (List.drop_eq_nil_iff.mpr hshort).symm
    next => rfl
  have hpoint : (if digits.length ≤ 1 then none else some (digits.drop 1)).elim [] ('.' :: ·) =
      if digits.length ≤ 1 then [] else '.' :: digits.drop 1 := by
    split <;> rfl
  have hdigits := List.take_append_drop 1 digits
  refine ⟨⟨.ofNegative negative, digits.take 1,
    if digits.length ≤ 1 then none else some (digits.drop 1), some (style.exponentText power), ?_⟩,
    ?_, ?_⟩
  · rwa [hfraction, hdigits]
  · simp only [DecimalText.written, hpoint, Option.elim_some, written_exponentText]
    simp
  · have hexponent : power - ((digits.drop 1).length : Int) = exponent := by
      rw [List.length_drop]
      omega
    simp only [DecimalText.value, hfraction, hdigits, hread, Option.elim, value_exponentText,
      hexponent, Sign.isMinus_ofNegative]

/-- A double is written in a style as one that reads as it. -/
theorem isWritten_render {style : NumberStyle} (hend : style.wholeEnd = "") {x : Double}
    (hnan : x.isNaN = false) (hfinite : x.isInfinite = false) :
    x.IsWritten (style.render x).toList := by
  cases x with
  | nan => cases hnan
  | infinite => cases hfinite
  | finite negative mantissa exponent h =>
    rcases Nat.eq_zero_or_pos mantissa with rfl | hpos
    · -- A zero is the one number that may lose its sign.
      obtain rfl : exponent = 0 := h.2.1.resolve_left (by decide)
      refine ⟨⟨.ofNegative (negative && style.signedZero), ['0'], none, none, rfl⟩, ?_, ?_⟩
      · rw [render, if_pos rfl, hend]
        cases negative && style.signedZero <;> rfl
      · cases negative && style.signedZero <;> cases negative <;> rfl
    · obtain ⟨hback, hnegative, -⟩ := Double.toDouble_shortest h hpos style.tie
      rw [render, if_neg hpos.ne']
      dsimp only
      generalize (Double.finite negative mantissa exponent h).shortest style.tie = decimal at *
      obtain ⟨sign, coefficient, power⟩ := decimal
      obtain rfl : sign = negative := hnegative
      rw [← hback, String.toList_ofList]
      apply Double.IsWritten.of_decimal
      have hsign (body : List Char) : (if sign then '-' :: body else body) =
          (Sign.ofNegative sign).written ++ body := by
        cases sign <;> rfl
      rw [hsign]
      split
      next => exact isWritten_positionally sign coefficient hend power
      next => exact isWritten_scientifically sign coefficient style power

end NumberStyle

/-- An integer is written as one that reads as it. -/
theorem Double.isWritten_intText {i : Int} (h : i.natAbs < 2 ^ 64) :
    (Double.ofInt i).IsWritten (Numeral.intText i).toList := by
  have hsign : (Numeral.intText i).toList = (Sign.ofNegative (decide (i < 0))).written ++
      (Numeral.render i.natAbs ++ List.replicate 0 '0') := by
    rw [Numeral.toList_intText]
    by_cases hnegative : i < 0 <;> simp [hnegative, Sign.ofNegative, Sign.written]
  have hvalue : Decimal.toDouble ⟨decide (i < 0), i.natAbs, (0 : Nat)⟩ = .ofInt i := by
    rcases Nat.eq_zero_or_pos i.natAbs with hzero | hpos
    · obtain rfl : i = 0 := by omega
      rw [Double.ofInt_zero]
      rfl
    · have hlength := Numeral.length_render_le (n := i.natAbs) (k := 20) (by omega) (by decide)
      rw [Decimal.toDouble_nat hpos (by omega), Nat.pow_zero, Nat.mul_one]
      rfl
  rw [hsign, ← hvalue]
  exact .of_decimal (NumberStyle.isWritten_behind _ _ 0)

namespace Coercion

/-- A number as people read it reads as the number. -/
theorem isWritten_numberText {n : Number} (hn : n.IsProper) :
    n.toDouble.IsWritten (numberText n).toList := by
  cases n with
  | double d => exact NumberStyle.isWritten_render rfl hn.1 hn.2
  | int i =>
    obtain ⟨hlow, hhigh⟩ := hn
    exact Double.isWritten_intText (by omega)

/-! ## Reading -/

theorem not_blank_of_isDecimalChar {c : Char} (h : isDecimalChar c = true) :
    c.toNat ∉ Text.blankPoints := by
  rw [← Text.isBlank_iff, Bool.not_eq_true]
  simp only [isDecimalChar, Bool.or_eq_true, decide_eq_true_eq] at h
  rcases h with ((((h | rfl) | rfl) | rfl) | rfl) | rfl
  · exact Text.isBlank_of_isDigit h
  all_goals decide

/-- There is no white space at the ends of a decimal. -/
theorem trims_written (t : DecimalText) {front back : List Char}
    (hblank : ∀ c ∈ front ++ back, c.toNat ∈ Text.blankPoints) :
    Text.Trims (front ++ (t.written ++ back)) front t.written back where
  text := rfl
  blank := hblank
  first _ hc := not_blank_of_isDecimalChar (isDecimalChar_of_mem (List.mem_of_head? hc))
  last _ hc := not_blank_of_isDecimalChar (isDecimalChar_of_mem (List.mem_of_getLast? hc))

/-- A decimal with white space around it counts as what it reads as. -/
theorem ofText_of_trims {s : String} {t : DecimalText} {front back : List Char}
    (h : Text.Trims s.toList front t.written back) : ofText s = t.value.toDouble := by
  have hchars : ∀ c ∈ t.written, isDecimalChar c = true := fun _ => isDecimalChar_of_mem
  obtain ⟨c, hc, -⟩ := exists_isDigit_mem t
  rw [← ofDecimal_written, ofText, h.eq_trim]
  generalize t.written = cs at *
  split
  next => cases hc
  next => cases hchars 'x' (by simp)
  next => cases hchars 'X' (by simp)
  next => cases hchars 'o' (by simp)
  next => cases hchars 'O' (by simp)
  next => cases hchars 'b' (by simp)
  next => cases hchars 'B' (by simp)
  next =>
    split
    next hinfinite =>
      rcases hinfinite with rfl | rfl <;> cases hchars 'I' (by simp)
    next =>
      split
      next hinfinite =>
        subst hinfinite
        cases hchars 'I' (by simp)
      next => rfl

/-- A text of a double counts as the double, with white space around it or without. -/
theorem equals_ofText {x : Double} {s front back : String} (h : x.IsWritten s.toList)
    (hblank : ∀ c ∈ front.toList ++ back.toList, c.toNat ∈ Text.blankPoints) :
    (ofText (front ++ s ++ back)).equals x = true := by
  obtain ⟨t, hwritten, hvalue⟩ := h
  have htrims := trims_written t hblank
  have hchars : (front ++ s ++ back).toList = front.toList ++ (t.written ++ back.toList) := by
    simp [hwritten]
  rw [← hchars] at htrims
  rwa [ofText_of_trims htrims]

/-- **A number that was turned into a text counts as the number it was**, alone, as the one item of
an array and with white space around it. -/
theorem equals_operandNumber_numberText {n : Number} (hn : n.IsProper) :
    (operandNumber (some (.string (numberText n)))).equals n.toDouble = true ∧
    (operandNumber (some (.array [.number n]))).equals n.toDouble = true ∧
    ∀ front back : String, (∀ c ∈ front.toList ++ back.toList, c.toNat ∈ Text.blankPoints) →
      (operandNumber (some (.string (front ++ numberText n ++ back)))).equals n.toDouble =
        true := by
  have hwritten := isWritten_numberText hn
  have hplain : (ofText (numberText n)).equals n.toDouble = true := by
    have hblank : ∀ c ∈ "".toList ++ "".toList, c.toNat ∈ Text.blankPoints := by simp
    simpa using equals_ofText hwritten hblank
  refine ⟨hplain, ?_, fun front back hblank => equals_ofText hwritten hblank⟩
  have htext : text (.array [.number n]) = numberText n := by
    simp [text, itemTexts]
  rw [operandNumber, htext]
  exact hplain

/-- The smallest double, which is written with an exponent, between a tab and a blank. -/
theorem equals_operandNumber_smallest :
    Number.IsProper (.double (.finite false 1 0 (by decide))) ∧
    (operandNumber (some (.string ("\t" ++
      numberText (.double (.finite false 1 0 (by decide))) ++ " ")))).equals
        (.finite false 1 0 (by decide)) = true := by
  have hproper : Number.IsProper (.double (.finite false 1 0 (by decide))) := ⟨rfl, rfl⟩
  have hblank : ∀ c ∈ "\t".toList ++ " ".toList, c.toNat ∈ Text.blankPoints := by
    simp [Text.blankPoints]
  exact ⟨hproper, (equals_operandNumber_numberText hproper).2.2 "\t" " " hblank⟩

end Coercion

end Outreach
