/-!
# Numbers in double precision

A finite double is `± mantissa · 2 ^ exponent` units, where the unit is `2 ^ (-1074)`, the
smallest positive double. In these units every finite double is a whole number, so order and
equality are those of the integers and no operation here needs more than integer arithmetic.

`Double.round` is the one place where precision is lost: it takes the quotient of two naturals,
counted in units, to the nearest double, and of two equally near ones to the one with an even
mantissa. Reading a decimal and converting an integer are both instances of it.
-/

namespace Outreach

/-- Mantissa and exponent of a finite double: 53 bits, the top one set unless the exponent is the
least one. -/
def IsCanonical (mantissa exponent : Nat) : Prop :=
  mantissa < Nat.pow 2 53 ∧ (Nat.pow 2 52 ≤ mantissa ∨ exponent = 0) ∧ exponent ≤ 2045

instance (mantissa exponent : Nat) : Decidable (IsCanonical mantissa exponent) :=
  inferInstanceAs (Decidable (_ ∧ _ ∧ _))

/-- A number in double precision. -/
inductive Double where
  | nan
  | infinite (negative : Bool)
  | finite (negative : Bool) (mantissa exponent : Nat) (canonical : IsCanonical mantissa exponent)
  deriving DecidableEq

namespace Double

/-- Zero, with either sign. -/
def zero (negative : Bool) : Double :=
  .finite negative 0 0 (by decide)

instance : Inhabited Double := ⟨zero false⟩

/-- The double with a mantissa and an exponent. An exponent beyond the range gives an infinity. -/
def ofParts (negative : Bool) (mantissa exponent : Nat) : Double :=
  if h : IsCanonical mantissa exponent then .finite negative mantissa exponent h
  else .infinite negative

/-- The quotient rounded to the nearest natural number, a half to the even one. -/
def roundQuotient (num den : Nat) : Nat :=
  let q := num / den
  let r := num % den
  if 2 * r < den ∨ (2 * r = den ∧ q % 2 = 0) then q else q + 1

/-- The double nearest to `num / den` units. -/
def round (negative : Bool) (num den : Nat) : Double :=
  let exponent := (num / den).log2 - 52
  let mantissa := roundQuotient num (den * Nat.pow 2 exponent)
  if mantissa = Nat.pow 2 53 then ofParts negative (Nat.pow 2 52) (exponent + 1)
  else ofParts negative mantissa exponent

/-- The number of units in one. -/
def unitsPerOne : Nat :=
  Nat.pow 2 1074

/-- The double nearest to an integer; zero has no sign. -/
def ofInt (i : Int) : Double :=
  round (decide (i < 0)) (i.natAbs * unitsPerOne) 1

/-- The magnitude of a finite double in units. -/
def units : Double → Nat
  | .finite _ mantissa exponent _ => mantissa * Nat.pow 2 exponent
  | _ => 0

/-- The place of a double on the line: an infinity lies beyond every finite double. -/
def position : Double → Option Int
  | .nan => none
  | .infinite negative => some (if negative then -(Nat.pow 2 2099) else Nat.pow 2 2099)
  | .finite negative mantissa exponent _ =>
    some (if negative then -(mantissa * Nat.pow 2 exponent : Nat)
      else (mantissa * Nat.pow 2 exponent : Nat))

/-- Numeric equality: the two zeros are equal, and a number that is not one equals nothing. -/
def equals (a b : Double) : Bool :=
  match a.position, b.position with
  | some x, some y => x == y
  | _, _ => false

/-- Numeric order; false when either side is not a number. -/
def less (a b : Double) : Bool :=
  match a.position, b.position with
  | some x, some y => decide (x < y)
  | _, _ => false

def isNaN : Double → Bool
  | .nan => true
  | _ => false

def isInfinite : Double → Bool
  | .infinite _ => true
  | _ => false

/-- The sign of a double; not a number counts as positive. -/
def isNegative : Double → Bool
  | .nan => false
  | .infinite negative => negative
  | .finite negative _ _ _ => negative

/-- The 64 bits of the interchange format: sign, biased exponent, fraction. With the exponent
counted from the smallest unit, the last two together are `exponent · 2 ^ 52 + mantissa`. -/
def bits : Double → Nat
  | .nan => 0x7FF8000000000000
  | .infinite negative => (if negative then Nat.pow 2 63 else 0) + 0x7FF0000000000000
  | .finite negative mantissa exponent _ =>
    (if negative then Nat.pow 2 63 else 0) + exponent * Nat.pow 2 52 + mantissa

end Double

end Outreach
