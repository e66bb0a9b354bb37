/-!
# Hexadecimal numerals

Written in lower case; read in either case.
-/

namespace Outreach.Hexadecimal

/-- The digit of a number below sixteen, in lower case. -/
def digit (d : Nat) : Char :=
  if d < 10 then Char.ofNat (48 + d) else Char.ofNat (87 + d)

/-- The digit of a number below sixteen, in upper case. -/
def upperDigit (d : Nat) : Char :=
  if d < 10 then Char.ofNat (48 + d) else Char.ofNat (55 + d)

/-- The number that a digit stands for, if the character is one. -/
def valueOf? (c : Char) : Option Nat :=
  let n := c.toNat
  if 48 ≤ n ∧ n ≤ 57 then some (n - 48)
  else if 97 ≤ n ∧ n ≤ 102 then some (n - 87)
  else if 65 ≤ n ∧ n ≤ 70 then some (n - 55)
  else none

/-- The numeral of a number, without leading zeros. -/
def render (n : Nat) : List Char :=
  if n < 16 then [digit n] else render (n / 16) ++ [digit (n % 16)]
termination_by n
decreasing_by omega

/-- The last `width` digits of a number, zeros in front. -/
def fixed : (width : Nat) → Nat → List Char
  | 0, _ => []
  | width + 1, n => fixed width (n / 16) ++ [digit (n % 16)]

/-- The number that a row of digits stands for; none if a character is no digit. -/
def read? (cs : List Char) : Option Nat :=
  cs.foldl (fun acc c => acc.bind fun n => (valueOf? c).map (16 * n + ·)) (some 0)

end Outreach.Hexadecimal
