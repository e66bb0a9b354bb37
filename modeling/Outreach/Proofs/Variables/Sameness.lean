import Outreach.Funnel.Evaluation
import Outreach.Proofs.Number.Whole

/-!
# The same value and the same text

Whether two numbers are the same is asked of them as doubles, and doubles that are equal are the same
double or two zeros, which read alike (`Double.eq_or_zero_of_equals`, `NumberStyle.render_congr`). A
number that is held as a whole number is written digit by digit, though, and from `2 ^ 53` on the
digits may be others than those of the double that it counts as. `Coercion.text_eq_iff_of_same` says
exactly when operands that are the same read alike, so that what equals also contains. In
`Coercion.neighbours_read_apart` two whole numbers are the same and neither contains the other.
-/

namespace Outreach

namespace Double

/-! ## Equal doubles -/

/-- A double has one mantissa and one exponent. -/
theorem parts_of_units {mantissa exponent mantissa' exponent' : Nat}
    (h : IsCanonical mantissa exponent) (h' : IsCanonical mantissa' exponent')
    (heq : mantissa * 2 ^ exponent = mantissa' * 2 ^ exponent') :
    mantissa = mantissa' ∧ exponent = exponent' := by
  have hexponent : exponent = exponent' := by
    rw [← log2_mul_pow h, heq, log2_mul_pow h']
  subst hexponent
  exact ⟨Nat.eq_of_mul_eq_mul_right (Nat.pow_pos (by decide)) heq, rfl⟩

/-- An infinity lies beyond every finite double. -/
theorem units_lt_infinite (d : Double) : d.units < Nat.pow 2 2099 := by
  have hpos : 0 < Nat.pow 2 2099 := by decide +kernel
  cases d with
  | nan => exact hpos
  | infinite => exact hpos
  | finite negative mantissa exponent h =>
    have htop : 2 ^ (53 + 2045) < Nat.pow 2 2099 := by decide +kernel
    exact (units_lt h h.2.2).trans htop

/-- A place on the line tells the distance from its middle, and the side unless it is the middle. -/
theorem magnitude_of_signed {s t : Bool} {m n : Nat}
    (h : some (if s then -(m : Int) else m) = some (if t then -(n : Int) else n)) :
    m = n ∧ (s = t ∨ m = 0) := by
  cases s <;> cases t <;> simp at h ⊢ <;> omega

theorem eq_zero_of_units {negative : Bool} {mantissa exponent : Nat}
    (h : IsCanonical mantissa exponent) (hzero : mantissa * 2 ^ exponent = 0) :
    Double.finite negative mantissa exponent h = zero negative := by
  obtain rfl : mantissa = 0 :=
    (Nat.mul_eq_zero.mp hzero).resolve_right (Nat.pow_pos (by decide)).ne'
  obtain rfl : exponent = 0 := h.2.1.resolve_left (by decide)
  rfl

/-- Doubles that are equal are the same double, or both are zero. -/
theorem eq_or_zero_of_equals {a b : Double} (h : a.equals b = true) :
    a = b ∨ ∃ s t, a = zero s ∧ b = zero t := by
  have hplace : a.position = b.position ∧ a ≠ .nan ∧ b ≠ .nan := by
    unfold equals at h
    split at h
    next x y hx hy =>
      refine ⟨by rw [hx, hy, eq_of_beq h], ?_, ?_⟩
      · rintro rfl
        cases hx
      · rintro rfl
        cases hy
    next => cases h
  obtain ⟨hposition, hleft, hright⟩ := hplace
  have ha := units_lt_infinite a
  have hb := units_lt_infinite b
  unfold position at hposition
  generalize Nat.pow 2 2099 = beyond at *
  cases a with
  | nan => exact absurd rfl hleft
  | infinite s =>
    cases b with
    | nan => exact absurd rfl hright
    | infinite t =>
      obtain ⟨-, rfl | hzero⟩ := magnitude_of_signed hposition
      · exact .inl rfl
      · omega
    | finite t mantissa exponent hc =>
      obtain ⟨hsame, -⟩ := magnitude_of_signed hposition
      exact absurd hsame.symm hb.ne
  | finite s mantissa exponent hc =>
    cases b with
    | nan => exact absurd rfl hright
    | infinite t =>
      obtain ⟨hsame, -⟩ := magnitude_of_signed hposition
      exact absurd hsame ha.ne
    | finite t mantissa' exponent' hc' =>
      obtain ⟨hsame, hside⟩ := magnitude_of_signed hposition
      rcases hside with rfl | hzero
      · obtain ⟨rfl, rfl⟩ := parts_of_units hc hc' hsame
        exact .inl rfl
      · exact .inr ⟨s, t, eq_zero_of_units hc hzero, eq_zero_of_units hc' (hsame.symm.trans hzero)⟩

end Double

/-- Doubles that are equal read alike in a style that shows no sign of a zero. -/
theorem NumberStyle.render_congr {style : NumberStyle} (hzero : style.signedZero = false)
    {a b : Double} (h : a.equals b = true) : style.render a = style.render b := by
  rcases Double.eq_or_zero_of_equals h with rfl | ⟨s, t, rfl, rfl⟩
  · rfl
  · simp [NumberStyle.render, Double.zero, hzero]

theorem Text.occursIn_self (text : List Char) : Text.occursIn text text = true := by
  cases text with
  | nil => rfl
  | cons c rest => simp [Text.occursIn]

namespace Coercion

/-! ## Operands -/

/-- An operand whose text is that of the double it counts as, or that is no number. -/
def WrittenAsDouble : Option Json → Prop
  | some (.number n) => numberText n = NumberStyle.readable.render n.toDouble
  | _ => True

/-- An operand that is below a bound if it is a whole number, whatever its sign. -/
def WholeBelow (bound : Nat) : Option Json → Prop
  | some (.number (.int i)) => i.natAbs < bound
  | _ => True

/-- Whole numbers below `2 ^ 53` are written as their doubles are. -/
theorem WholeBelow.writtenAsDouble {operand : Option Json} (h : WholeBelow (2 ^ 53) operand) :
    WrittenAsDouble operand := by
  unfold WholeBelow at h
  split at h
  next i =>
    refine (NumberStyle.render_ofInt rfl (fun place hpos hle => ?_) h).symm
    simp only [NumberStyle.readable, Bool.and_eq_true, decide_eq_true_eq]
    omega
  next hother =>
    unfold WrittenAsDouble
    split
    next n =>
      cases n with
      | int i => exact absurd rfl (hother i)
      | double => rfl
    next => trivial

variable {left right : Option Json}

/-- Operands that are the same are equal, or they are numbers that are equal as doubles. -/
theorem eq_or_numbers_of_same (h : same left right = true) :
    left = right ∨ ∃ m n, left = some (.number m) ∧ right = some (.number n) ∧
      m.toDouble.equals n.toDouble = true := by
  unfold same at h
  split at h
  next => exact .inl rfl
  next => exact .inl rfl
  next => exact .inl (by rw [eq_of_beq h])
  next => exact .inl (by rw [eq_of_beq h])
  next m n => exact .inr ⟨m, n, rfl, rfl, h⟩
  next => cases h

/-- Numbers that are equal as doubles read alike exactly if they are the same or are written as their
doubles are. -/
theorem numberText_eq_iff {m n : Number} (h : m.toDouble.equals n.toDouble = true) :
    numberText m = numberText n ↔
      m = n ∨ (WrittenAsDouble (some (.number m)) ∧ WrittenAsDouble (some (.number n))) := by
  have hrender := @NumberStyle.render_congr .readable rfl _ _ h
  constructor
  · intro htext
    cases m with
    | int i =>
      cases n with
      | int j => exact .inl (congrArg Number.int (Numeral.intText_injective htext))
      | double d => exact .inr ⟨htext.trans hrender.symm, rfl⟩
    | double d => exact .inr ⟨rfl, htext.symm.trans hrender⟩
  · rintro (rfl | ⟨hm, hn⟩)
    · rfl
    · exact hm.trans (hrender.trans hn.symm)

/-- What reads alike is contained, on any field that can be asked about. -/
theorem contains_of_text_eq {field : String} {vars : Variables} {value : Option Json}
    (hfield : Text.isBlankText field = false)
    (htext : operandText (vars.resolve? field) = operandText value) :
    Condition.evaluate ⟨field, .contains, value⟩ vars = .ok true := by
  unfold Condition.evaluate Operator.holds
  dsimp only
  rw [hfield, if_neg Bool.false_ne_true, htext, Text.occursIn_self]

/-- **Operands that are the same read alike exactly unless a whole number among them has other
digits than the double it counts as**: two operands that are the same have one text if and only if
they are equal, or every number among them is written as its double is. So they do below `2 ^ 53`,
and what equals an operand contains it if the two read alike. -/
theorem text_eq_iff_of_same (h : same left right = true) :
    (operandText left = operandText right ↔
      left = right ∨ (WrittenAsDouble left ∧ WrittenAsDouble right)) ∧
    (WholeBelow (2 ^ 53) left → WholeBelow (2 ^ 53) right → operandText left = operandText right) ∧
    (operandText left = operandText right → ∀ (field : String) (vars : Variables),
      vars.resolve? field = left → Condition.evaluate ⟨field, .equals, right⟩ vars = .ok true →
      Condition.evaluate ⟨field, .contains, right⟩ vars = .ok true) := by
  have htexts : operandText left = operandText right ↔
      left = right ∨ (WrittenAsDouble left ∧ WrittenAsDouble right) := by
    rcases eq_or_numbers_of_same h with rfl | ⟨m, n, rfl, rfl, hequal⟩
    · exact iff_of_true rfl (.inl rfl)
    · have hnumbers := numberText_eq_iff hequal
      refine Iff.trans hnumbers (or_congr ?_ Iff.rfl)
      exact ⟨fun heq => by rw [heq], fun heq => Json.number.inj (Option.some.inj heq)⟩
  refine ⟨htexts, fun hleft hright => ?_, ?_⟩
  · exact htexts.mpr (.inr ⟨hleft.writtenAsDouble, hright.writtenAsDouble⟩)
  · rintro htext field vars rfl hequals
    refine contains_of_text_eq ?_ htext
    rw [← Bool.not_eq_true]
    intro hblank
    rw [Condition.evaluate, if_pos hblank] at hequals
    cases hequals

/-- A whole number and the double that is equal to it, both below the bound. -/
theorem eighty_reads_alike :
    same (some (.number (.int 80))) (some (.number (.double (.ofInt 80)))) = true ∧
      operandText (some (.number (.int 80))) = operandText (some (.number (.double (.ofInt 80)))) :=
  have hsame : same (some (.number (.int 80))) (some (.number (.double (.ofInt 80)))) = true := by
    decide +kernel
  ⟨hsame, (text_eq_iff_of_same hsame).2.1 (show 80 < 2 ^ 53 by decide) trivial⟩

/-- Two whole numbers beyond the bound, which are the same and read apart: the one is found equal to
the other, but not contained in it. -/
theorem neighbours_read_apart :
    let left : Json := .number (.int 9007199254740992)
    let right : Json := .number (.int 9007199254740993)
    same (some left) (some right) = true ∧ operandText (some left) ≠ operandText (some right) ∧
      Condition.evaluate ⟨"x", .equals, some right⟩ [("x", left)] = .ok true ∧
      Condition.evaluate ⟨"x", .contains, some right⟩ [("x", left)] = .ok false := by
  refine ⟨by decide +kernel, fun h => ?_, by decide +kernel, by decide +kernel⟩
  simp only [operandText, text, numberText] at h
  exact absurd (Numeral.intText_injective h) (by decide)

end Coercion

end Outreach
