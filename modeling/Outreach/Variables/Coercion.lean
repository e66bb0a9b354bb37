import Outreach.Json.Printer
import Outreach.Text.Blank
import Outreach.Text.Split
import Outreach.Variables.Path

/-!
# Values as numbers and as texts

Conditions and messages are written by people who know the values from a dashboard that runs in a
browser, so a value counts as a number, as a text and as equal to another by the rules that hold
there. An absent value is none of the values and not null either.
-/

namespace Outreach

namespace NumberStyle

/-- The style of texts that people read: no point behind a whole number, an exponent from `10 ^ 21`
up and below `10 ^ (-6)`, and a zero without sign. -/
def readable : NumberStyle where
  tie := .away
  positional := fun place => -5 ≤ place && place ≤ 21
  wholeEnd := ""
  plus := true
  signedZero := false

end NumberStyle

namespace Coercion

/-- The digit that a character is in a radix up to sixteen. -/
def radixDigit? (radix : Nat) (c : Char) : Option Nat :=
  (Hexadecimal.valueOf? c).filter (· < radix)

/-- One more digit behind a number, rounded to a double. -/
def shiftIn (radix : Nat) (acc : Double) (digit : Nat) : Double :=
  match acc with
  | .finite .. => .round false (acc.units * radix + digit * Double.unitsPerOne) 1
  | acc => acc

/-- The number that digits of a radix stand for, rounded at every digit. -/
def ofRadix (radix : Nat) (digits : List Char) : Double :=
  if digits.isEmpty then .nan
  else match digits.mapM (radixDigit? radix) with
    | none => .nan
    | some values => values.foldl (shiftIn radix) (.zero false)

/-- Whether a character may stand in a decimal. -/
def isDecimalChar (c : Char) : Bool :=
  Numeral.isDigit c || c = '+' || c = '-' || c = '.' || c = 'e' || c = 'E'

/-- The number that a decimal stands for, if it is one. -/
def ofDecimal (cs : List Char) : Double :=
  if cs.all isDecimalChar then
    match Decimal.read? cs with
    | some decimal => decimal.toDouble
    | none => .nan
  else .nan

/-- The number that a text stands for: white space around it counts for nothing, an empty text is
zero, and a text that is no number is none. -/
def ofText (s : String) : Double :=
  match Text.trim s.toList with
  | [] => .zero false
  | '0' :: 'x' :: digits | '0' :: 'X' :: digits => ofRadix 16 digits
  | '0' :: 'o' :: digits | '0' :: 'O' :: digits => ofRadix 8 digits
  | '0' :: 'b' :: digits | '0' :: 'B' :: digits => ofRadix 2 digits
  | cs =>
    if cs = "Infinity".toList ∨ cs = "+Infinity".toList then .infinite false
    else if cs = "-Infinity".toList then .infinite true
    else ofDecimal cs

/-- A number as people read it. -/
def numberText : Number → String
  | .int i => Numeral.intText i
  | .double d => NumberStyle.readable.render d

mutual

/-- A value as a text: an array as its items with commas between them, an object as a fixed text. -/
def text : Json → String
  | .null => "null"
  | .bool true => "true"
  | .bool false => "false"
  | .number n => numberText n
  | .string s => s
  | .array items => String.intercalate "," (itemTexts items)
  | .object _ => "[object Object]"

/-- The texts of items; null and absent items are empty. -/
def itemTexts : List Json → List String
  | [] => []
  | .null :: rest => "" :: itemTexts rest
  | item :: rest => text item :: itemTexts rest

end

/-- An operand as a text. -/
def operandText : Option Json → String
  | none => "undefined"
  | some value => text value

/-- An operand as a number. -/
def operandNumber : Option Json → Double
  | none => .nan
  | some .null => .zero false
  | some (.bool b) => .ofInt (if b then 1 else 0)
  | some (.number n) => n.toDouble
  | some (.string s) => ofText s
  | some (.array items) => ofText (text (.array items))
  | some (.object _) => .nan

/-- Whether two operands are the same value. Numbers are compared as doubles; arrays and objects
are never the same, because each is one of its own. -/
def same : Option Json → Option Json → Bool
  | none, none => true
  | some .null, some .null => true
  | some (.bool a), some (.bool b) => a == b
  | some (.string a), some (.string b) => a == b
  | some (.number a), some (.number b) => a.toDouble.equals b.toDouble
  | _, _ => false

/-- A value as it is put into a message: texts as they are, arrays and objects in written form. -/
def inserted : Json → String
  | .string s => s
  | .array items => (Json.array items).compact
  | .object members => (Json.object members).compact
  | value => text value

end Coercion

end Outreach
