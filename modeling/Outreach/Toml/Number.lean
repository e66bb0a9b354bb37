import Outreach.Number.Decimal
import Outreach.Source.Word
import Outreach.Text.Split
import Outreach.Time.Calendar

/-!
# Numbers and dates in a TOML text

Whole numbers of 64 bits with a sign, decimals, dates and times of day. Digits may be parted by
single underscores.
-/

namespace Outreach.Toml

/-- Digits of a base, single underscores between them: the digits, and the rest. -/
def digits? (base : Nat) (cs : List Char) : Option (List Char × List Char) :=
  let run := cs.takeWhile fun c => c = '_' || (Hexadecimal.valueOf? c).any (· < base)
  let parts := Text.split '_' run
  if parts.any List.isEmpty then none else some (parts.flatten, cs.drop run.length)

/-- The mark of a base other than ten. -/
def base? (c : Char) : Option Nat :=
  match c with
  | 'x' => some 16
  | 'o' => some 8
  | 'b' => some 2
  | _ => none

/-- A whole number, if 64 bits hold it with its sign. -/
def ofWhole? (i : Int) : Option Source :=
  if -(Nat.pow 2 63) ≤ i ∧ i < Nat.pow 2 63 then some (.number (.int i)) else none

/-- A row of decimal digits without zeros in front. -/
def wholeDigits? (cs : List Char) : Option (List Char × List Char) :=
  match cs with
  | '0' :: rest => some (['0'], rest)
  | cs => digits? 10 cs

/-- What follows the whole digits of a decimal: the digits behind its point, and its exponent. -/
def decimalTail? (cs : List Char) : Option ((List Char × Int) × List Char) := do
  let (fraction, cs) ← match cs with
    | '.' :: rest => digits? 10 rest
    | cs => some ([], cs)
  match cs with
  | 'e' :: rest | 'E' :: rest =>
    let (negative, rest) := Decimal.readSign rest
    let (digits, rest) ← digits? 10 rest
    let n : Int := Numeral.read digits
    some ((fraction, if negative then -n else n), rest)
  | cs => if fraction.isEmpty then none else some ((fraction, 0), cs)

/-- A number in base ten: a decimal where a point or an exponent follows its digits. Decimals beyond
the largest double are refused. -/
def decimal? (cs : List Char) : Option (Source × List Char) := do
  let (negative, cs) := Decimal.readSign cs
  let (whole, rest) ← wholeDigits? cs
  match rest with
  | '.' :: _ | 'e' :: _ | 'E' :: _ =>
    let ((fraction, exponent), rest) ← decimalTail? rest
    let d := Decimal.toDouble
      ⟨negative, Numeral.read (whole ++ fraction), exponent - fraction.length⟩
    if d = .infinite false then none else some (.number (.double d), rest)
  | rest =>
    let n : Int := Numeral.read whole
    (ofWhole? (if negative then -n else n)).map fun v => (v, rest)

/-- A number of any kind. -/
def number? (cs : List Char) : Option (Source × List Char) :=
  let (negative, behind) := Decimal.readSign cs
  match cs, behind with
  | '0' :: c :: rest, _ =>
    match base? c with
    | some base => do
      let (digits, rest) ← digits? base rest
      let n ← Word.digits? base digits
      let v ← ofWhole? n
      some (v, rest)
    | none => decimal? cs
  | _, 'i' :: 'n' :: 'f' :: rest => some (.number (.double (.infinite negative)), rest)
  | _, 'n' :: 'a' :: 'n' :: rest => some (.number (.double .nan), rest)
  | _, _ => decimal? cs

/-- A number of two digits between two bounds. -/
def pair? (least most : Nat) : List Char → Option (Nat × List Char)
  | a :: b :: rest =>
    let n := 10 * Numeral.valueOf a + Numeral.valueOf b
    if Numeral.isDigit a && Numeral.isDigit b && least ≤ n && n ≤ most then some (n, rest) else none
  | _ => none

/-- A pair of digits behind a mark. -/
def pairBehind? (mark : Char) (least most : Nat) : List Char → Option (Nat × List Char)
  | c :: rest => if c = mark then pair? least most rest else none
  | [] => none

/-- What follows a date. -/
def pastDate? (cs : List Char) : Option (List Char) := do
  let year := cs.take 4
  if year.length = 4 ∧ year.all Numeral.isDigit then
    let (month, rest) ← pairBehind? '-' 1 12 (cs.drop 4)
    let (day, rest) ← pairBehind? '-' 1 31 rest
    if (Date.mk (Numeral.read year) month day).exists? then some rest else none
  else none

/-- What follows a fraction of a second; a point alone is none. -/
def pastFraction : List Char → List Char
  | '.' :: rest =>
    if (rest.head?.any Numeral.isDigit) then rest.dropWhile Numeral.isDigit else '.' :: rest
  | cs => cs

/-- What follows a time of day. -/
def pastTime? (cs : List Char) : Option (List Char) := do
  let (_, rest) ← pair? 0 23 cs
  let (_, rest) ← pairBehind? ':' 0 59 rest
  let (_, rest) ← pairBehind? ':' 0 60 rest
  some (pastFraction rest)

/-- What follows an offset, if there is one. -/
def pastOffset? : List Char → Option (List Char)
  | c :: rest =>
    if c = 'Z' ∨ c = 'z' then some rest
    else if c = '+' ∨ c = '-' then do
      let (_, rest) ← pair? 0 23 rest
      let (_, rest) ← pairBehind? ':' 0 59 rest
      some rest
    else some (c :: rest)
  | [] => some []

/-- What follows a date, a time of day, or both with or without an offset. -/
def pastMoment? (cs : List Char) : Option (List Char) :=
  match pastDate? cs with
  | none => pastTime? cs
  | some rest =>
    match rest with
    | 'T' :: time | 't' :: time => (pastTime? time).bind pastOffset?
    | ' ' :: time =>
      match pastTime? time with
      | some rest => pastOffset? rest
      | none => some rest
    | rest => some rest

/-- A date or time; it is read as a record with a member that nothing asks for. -/
def moment? (cs : List Char) : Option (Source × List Char) :=
  (pastMoment? cs).map fun rest =>
    let text := String.ofList (cs.take (cs.length - rest.length))
    (.record [("moment", .string text)] .closed, rest)

end Outreach.Toml
