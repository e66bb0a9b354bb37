/-!
# Decimal numerals

A natural number and the digits that write it. `read_render` says that the numeral of a number
reads back as that number, `isNumeral_render` that it consists of digits and is not empty.
-/

namespace Outreach.Numeral

/-- The digit that stands for a number below ten. -/
def digit (d : Nat) : Char :=
  Char.ofNat (48 + d)

/-- Whether a character is one of the ten ASCII digits. -/
def isDigit (c : Char) : Bool :=
  48 ≤ c.toNat && c.toNat ≤ 57

/-- The number that a digit stands for. -/
def valueOf (c : Char) : Nat :=
  c.toNat - 48

/-- The numeral of a number: no leading zero, `0` for zero. -/
def render (n : Nat) : List Char :=
  if n < 10 then [digit n] else render (n / 10) ++ [digit (n % 10)]
termination_by n
decreasing_by omega

/-- One more digit at the end of a numeral. -/
def shiftIn (n : Nat) (c : Char) : Nat :=
  10 * n + valueOf c

/-- The number that a row of digits stands for; leading zeros count for nothing. -/
def read (digits : List Char) : Nat :=
  digits.foldl shiftIn 0

/-- A row of one or more digits. -/
def isNumeral (cs : List Char) : Bool :=
  !cs.isEmpty && cs.all isDigit

/-- The number that a text stands for: digits, perhaps behind a plus, for a number below a bound. -/
def below? (bound : Nat) (cs : List Char) : Option Nat :=
  let digits := match cs with
    | '+' :: rest => rest
    | cs => cs
  if isNumeral digits && read digits < bound then some (read digits) else none

/-- The numeral as a string. -/
def text (n : Nat) : String :=
  String.ofList (render n)

/-- The numeral of an integer, with a minus sign below zero. -/
def intText (i : Int) : String :=
  if i < 0 then "-" ++ text i.natAbs else text i.natAbs

/-- The numeral of a number with zeros in front, at least `width` digits long. -/
def padded (width n : Nat) : List Char :=
  let digits := render n
  List.replicate (width - digits.length) '0' ++ digits

theorem toNat_digit {d : Nat} (h : d < 10) : (digit d).toNat = 48 + d := by
  have hv : (48 + d).isValidChar := by left; omega
  rw [digit, Char.ofNat, dif_pos hv]
  rfl

theorem isDigit_digit {d : Nat} (h : d < 10) : isDigit (digit d) = true := by
  simp only [isDigit, toNat_digit h, Bool.and_eq_true, decide_eq_true_eq]
  omega

theorem valueOf_digit {d : Nat} (h : d < 10) : valueOf (digit d) = d := by
  simp [valueOf, toNat_digit h]

theorem read_append_digit (cs : List Char) (c : Char) :
    read (cs ++ [c]) = 10 * read cs + valueOf c := by
  simp [read, shiftIn]

/-- The numeral of a number reads back as that number. -/
theorem read_render (n : Nat) : read (render n) = n := by
  induction n using Nat.strongRecOn with
  | ind n ih =>
    rw [render]
    split
    · next h => simp [read, shiftIn, valueOf_digit h]
    · next h => rw [read_append_digit, ih (n / 10) (by omega), valueOf_digit (by omega)]; omega

theorem render_ne_nil (n : Nat) : render n ≠ [] := by
  rw [render]; split <;> simp

/-- A numeral is a row of digits. -/
theorem all_isDigit_render (n : Nat) : (render n).all isDigit = true := by
  induction n using Nat.strongRecOn with
  | ind n ih =>
    rw [render]
    split
    · next h => simp [isDigit_digit h]
    · next h =>
      rw [List.all_append, ih (n / 10) (by omega)]
      simp [isDigit_digit (show n % 10 < 10 by omega)]

theorem isNumeral_render (n : Nat) : isNumeral (render n) = true := by
  simp [isNumeral, all_isDigit_render, render_ne_nil]

end Outreach.Numeral
