import Outreach.Number.Decimal
import Outreach.Source.Basic

/-!
# Words without quotes

What a word without quotes stands for where any value may stand: nothing, a truth value, a number,
or the text that it is. Numbers are whole ones in base ten, sixteen, eight or two, or decimals;
digits behind a leading zero are a text.
-/

namespace Outreach.Word

/-- The words for nothing, beside the empty one. -/
def nullWords : List String :=
  ["null", "Null", "NULL", "~"]

/-- Whether a word stands for nothing. -/
def isNull (word : String) : Bool :=
  word.isEmpty || nullWords.contains word

/-- The truth value that a word stands for. -/
def bool? (word : String) : Option Bool :=
  if ["true", "True", "TRUE"].contains word then some true
  else if ["false", "False", "FALSE"].contains word then some false
  else none

/-- The number that digits stand for in a base. -/
def digits? (base : Nat) (cs : List Char) : Option Nat :=
  if cs.isEmpty then none
  else cs.foldlM (fun n c =>
    ((Hexadecimal.valueOf? c).filter fun d => d < base).map fun d => base * n + d) 0

/-- Whether digits begin with a zero and go on behind it. -/
def isZeroLed : List Char → Bool
  | '0' :: rest => Numeral.isNumeral rest
  | _ => false

/-- A natural number without a sign. -/
def magnitude? (cs : List Char) : Option Nat :=
  match cs with
  | '0' :: 'x' :: rest => digits? 16 rest
  | '0' :: 'o' :: rest => digits? 8 rest
  | '0' :: 'b' :: rest => digits? 2 rest
  | cs => if isZeroLed cs then none else digits? 10 cs

/-- The whole number that a word stands for. -/
def whole? (word : String) : Option Int :=
  match word.toList with
  | '-' :: rest => (magnitude? rest).map fun n => -(n : Int)
  | '+' :: rest => (magnitude? rest).map fun n => (n : Int)
  | cs => (magnitude? cs).map fun n => (n : Int)

/-- The number that a word stands for where only natural numbers are wanted; it has no minus. -/
def natural? (word : String) : Option Int :=
  if word.toList.head? = some '-' then none else whole? word

/-- The double that a word stands for where only doubles are wanted. -/
def double? (word : String) : Option Double :=
  if [".inf", ".Inf", ".INF", "+.inf", "+.Inf", "+.INF"].contains word then some (.infinite false)
  else if ["-.inf", "-.Inf", "-.INF"].contains word then some (.infinite true)
  else if [".nan", ".NaN", ".NAN"].contains word then some .nan
  else ((Decimal.read? word.toList).map Decimal.toDouble).filter fun d => !d.isInfinite

/-- A decimal among other values, or else a text. -/
def decimalOrText (word : String) : Source :=
  if isZeroLed (Decimal.readSign word.toList).2 then .string word
  else match double? word with
    | some d => .number (.double d)
    | none => .string word

/-- What a word stands for among other values. A whole number that 64 bits do not hold cannot be
read, unless 128 bits do not hold it either, when it is a decimal. -/
def meaning (word : String) : Source :=
  if isNull word then .null
  else match bool? word, whole? word with
    | some b, _ => .bool b
    | none, some i =>
      if -(Nat.pow 2 63) ≤ i ∧ i < Nat.pow 2 64 then .number (.int i)
      else if -(Nat.pow 2 127) ≤ i ∧ i < Nat.pow 2 128 then .unreadable
      else decimalOrText word
    | none, none => decimalOrText word

/-- A word without quotes. -/
def source (word : String) : Source :=
  .word word (meaning word)

end Outreach.Word
