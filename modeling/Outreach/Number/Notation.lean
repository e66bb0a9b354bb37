import Outreach.Number.Decimal

/-!
# How a double is written

A `NumberStyle` holds the choices that a format leaves open once the digits are known: from where
to where the digits are written positionally, what a whole number ends in, how an exponent is
signed. The digits themselves are always the fewest that read back.
-/

namespace Outreach

/-- The choices of a number format. -/
structure NumberStyle where
  /-- Which of two equally near decimals is written. -/
  tie : Tie
  /-- The first and the last place of the point at which digits are written positionally. -/
  positional : Int → Bool
  /-- What follows a whole number. -/
  wholeEnd : String
  /-- Whether an exponent that is not negative carries a plus sign. -/
  plus : Bool
  /-- Whether a zero shows its sign. -/
  signedZero : Bool

namespace NumberStyle

/-- Digits with the point at `place`: before them, after them or among them. -/
def positionally (style : NumberStyle) (digits : List Char) (place : Int) : List Char :=
  if place ≤ 0 then '0' :: '.' :: List.replicate (-place).toNat '0' ++ digits
  else if digits.length ≤ place.toNat then
    digits ++ List.replicate (place.toNat - digits.length) '0' ++ style.wholeEnd.toList
  else digits.take place.toNat ++ '.' :: digits.drop place.toNat

/-- Digits with the point behind the first of them and an exponent. -/
def scientifically (style : NumberStyle) (digits : List Char) (place : Int) : List Char :=
  let exponent := place - 1
  let sign := if exponent < 0 then ['-'] else if style.plus then ['+'] else []
  digits.take 1 ++ (if digits.length ≤ 1 then [] else '.' :: digits.drop 1) ++
    'e' :: sign ++ Numeral.render exponent.natAbs

/-- A double in a style; an infinity and a number that is not one have names. -/
def render (style : NumberStyle) (x : Double) : String :=
  match x with
  | .nan => "NaN"
  | .infinite negative => if negative then "-Infinity" else "Infinity"
  | .finite negative mantissa _ _ =>
    if mantissa = 0 then
      (if negative && style.signedZero then "-0" else "0") ++ style.wholeEnd
    else
      let decimal := x.shortest style.tie
      let digits := Numeral.render decimal.coefficient
      let place := digits.length + decimal.exponent
      let body :=
        if style.positional place then style.positionally digits place
        else style.scientifically digits place
      String.ofList (if negative then '-' :: body else body)

/-- A plain decimal without exponent, whatever the size. -/
def plain : NumberStyle where
  tie := .away
  positional := fun _ => true
  wholeEnd := ""
  plus := false
  signedZero := true

end NumberStyle

end Outreach
