import Outreach.Number.Numeral
import Outreach.Number.Double

/-!
# Decimals and doubles

A decimal is `± coefficient · 10 ^ exponent`. `Decimal.read?` reads one written with a point and
an exponent, `Decimal.toDouble` gives the double nearest to it, and `Double.shortest` finds the
fewest digits that read back as a given double.
-/

namespace Outreach

/-- A number in decimal form, exact. -/
structure Decimal where
  negative : Bool
  coefficient : Nat
  exponent : Int
  deriving DecidableEq, Repr

namespace Decimal

/-- The double nearest to `coefficient · 10 ^ exponent`. A decimal with more than 309 digits before
its point is beyond every double, one with 323 zeros or more after it is nearer to zero than to the
smallest double. Both are told by the count of digits, so that no huge power is ever formed. -/
def toDouble (d : Decimal) : Double :=
  let point := (Numeral.render d.coefficient).length + d.exponent
  if d.coefficient = 0 ∨ point < -323 then .zero d.negative
  else if 309 < point then .infinite d.negative
  else if 0 ≤ d.exponent then
    .round d.negative (d.coefficient * Nat.pow 10 d.exponent.toNat * Double.unitsPerOne) 1
  else
    .round d.negative (d.coefficient * Double.unitsPerOne) (Nat.pow 10 (-d.exponent).toNat)

/-- A sign in front of the rest of a text: whether it is a minus, and the rest. -/
def readSign : List Char → Bool × List Char
  | '-' :: rest => (true, rest)
  | '+' :: rest => (false, rest)
  | rest => (false, rest)

/-- The exponent that ends a decimal: nothing, or `e`, a sign and one or more digits. -/
def readExponent? : List Char → Option Int
  | [] => some 0
  | c :: rest =>
    if c = 'e' ∨ c = 'E' then
      let (negative, digits) := readSign rest
      if Numeral.isNumeral digits then
        some (if negative then -(Numeral.read digits : Int) else Numeral.read digits)
      else none
    else none

/-- Reads an optional sign, digits with at most one point among or beside them, and an optional
exponent. At least one digit stands before or after the point. -/
def read? (cs : List Char) : Option Decimal :=
  let (negative, cs) := readSign cs
  let whole := cs.takeWhile Numeral.isDigit
  let afterWhole := cs.dropWhile Numeral.isDigit
  let (fraction, rest) := match afterWhole with
    | '.' :: cs => (cs.takeWhile Numeral.isDigit, cs.dropWhile Numeral.isDigit)
    | cs => ([], cs)
  if whole.isEmpty && fraction.isEmpty then none
  else (readExponent? rest).map fun exponent =>
    { negative, coefficient := Numeral.read (whole ++ fraction),
      exponent := exponent - fraction.length }

/-- The same decimal without the zeros at the end of its coefficient. -/
def trimZeros (fuel : Nat) (coefficient : Nat) (exponent : Int) : Nat × Int :=
  match fuel with
  | 0 => (coefficient, exponent)
  | fuel + 1 =>
    if coefficient ≠ 0 ∧ coefficient % 10 = 0 then trimZeros fuel (coefficient / 10) (exponent + 1)
    else (coefficient, exponent)

end Decimal

/-- Which of two equally near neighbours is written. -/
inductive Tie where
  | toEven
  | away
  deriving DecidableEq, Repr

namespace Double

/-- Multiplies by ten until the quotient reaches one; the number of steps taken. -/
def leadingZeros (fuel num den : Nat) : Nat :=
  match fuel with
  | 0 => 0
  | fuel + 1 => if den ≤ num then 0 else leadingZeros fuel (num * 10) den + 1

/-- The place of the point before the first digit of `units`: the least `k` with a value below
`10 ^ k`. -/
def pointPlace (units : Nat) : Int :=
  if unitsPerOne ≤ units then (Numeral.render (units / unitsPerOne)).length
  else 1 - (leadingZeros 330 units unitsPerOne : Int)

/-- The neighbours of `units` among the multiples of `10 ^ last`: the one below or at it, and
whether the one above is the nearer. -/
def neighbours (tie : Tie) (units : Nat) (last : Int) : Nat × Bool :=
  let num := if last < 0 then units * Nat.pow 10 (-last).toNat else units
  let den := if last < 0 then unitsPerOne else unitsPerOne * Nat.pow 10 last.toNat
  let below := num / den
  let twice := 2 * (num % den)
  (below, decide (den < twice) || (decide (twice = den) && (tie == .away || below % 2 == 1)))

/-- The decimal with `count` digits that reads back as `x`, the nearer one where two do. -/
def withDigits? (x : Double) (tie : Tie) (point : Int) (count : Nat) : Option Decimal :=
  let last := point - count
  let (below, aboveIsNearer) := neighbours tie x.units last
  let lower : Decimal := ⟨x.isNegative, below, last⟩
  let upper : Decimal := ⟨x.isNegative, below + 1, last⟩
  let (first, second) := if aboveIsNearer then (upper, lower) else (lower, upper)
  if first.toDouble = x then some first
  else if second.toDouble = x then some second
  else none

/-- All the digits of a finite double: `2 ^ (-1074)` is `5 ^ 1074 · 10 ^ (-1074)`. -/
def exactDecimal (x : Double) : Decimal :=
  ⟨x.isNegative, x.units * Nat.pow 5 1074, -1074⟩

/-- The fewest digits that read back as a finite double, tried from one digit up. Seventeen always
suffice; should they not, all digits are written. -/
def shortest (tie : Tie) (x : Double) : Decimal :=
  let point := pointPlace x.units
  let found := ((List.range 17).findSome? fun i => withDigits? x tie point (i + 1)).getD
    (exactDecimal x)
  let (coefficient, exponent) :=
    Decimal.trimZeros (Numeral.render found.coefficient).length found.coefficient found.exponent
  ⟨found.negative, coefficient, exponent⟩

end Double

end Outreach
