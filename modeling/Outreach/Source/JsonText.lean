import Outreach.Number.Decimal
import Outreach.Number.Hexadecimal
import Outreach.Source.Reader

/-!
# JSON texts

`Source.scan` takes a text apart into a source, and notes in it the place where the text stops
making sense. What can be told only by reading is left to the reader: a container inside more than
127 others, a number beyond the range of doubles and a text with half a surrogate pair are complete
and may be skipped, but are unreadable.
-/

namespace Outreach.Source

/-- How deep containers may be nested in a text that is to be read. -/
def depthLimit : Nat := 127

/-- The white space of JSON. -/
def isJsonBlank (c : Char) : Bool :=
  c = ' ' || c = '\n' || c = '\t' || c = '\r'

/-- A text without the white space at its start. -/
def skipBlanks (cs : List Char) : List Char :=
  cs.dropWhile isJsonBlank

/-- The number that four hexadecimal digits stand for. -/
def hexFour? (a b c d : Char) : Option Nat :=
  Hexadecimal.read? [a, b, c, d]

/-- What has been read of a quoted text: its characters, last first, and whether every escape so
far stands for a character. -/
structure Quoted where
  reversed : List Char
  readable : Bool

namespace Quoted

/-- One more character. -/
def push (q : Quoted) (c : Char) : Quoted :=
  { q with reversed := c :: q.reversed }

/-- An escape that stands for no character. -/
def spoil (q : Quoted) : Quoted :=
  { q with readable := false }

end Quoted

/-- The character that a letter stands for after a backslash. -/
def escaped? (c : Char) : Option Char :=
  if c = '"' ∨ c = '\\' ∨ c = '/' then some c
  else if c = 'b' then some '\x08'
  else if c = 'f' then some '\x0c'
  else if c = 'n' then some '\n'
  else if c = 'r' then some '\r'
  else if c = 't' then some '\t'
  else none

/-- Whether a unit of 16 bits is the first half of a surrogate pair. -/
def isHighHalf (unit : Nat) : Bool :=
  0xD800 ≤ unit && unit < 0xDC00

/-- Whether a unit of 16 bits is the second half of a surrogate pair. -/
def isLowHalf (unit : Nat) : Bool :=
  0xDC00 ≤ unit && unit < 0xE000

/-- The second half of a surrogate pair, if a text begins with its escape. -/
def lowHalf? : List Char → Option Nat
  | '\\' :: 'u' :: a :: b :: c :: d :: _ => (hexFour? a b c d).filter isLowHalf
  | _ => none

/-- The character that the two halves of a surrogate pair stand for. -/
def pairedChar (high low : Nat) : Char :=
  Char.ofNat (0x10000 + (high - 0xD800) * 0x400 + (low - 0xDC00))

/-- Reads a text behind its opening quote up to its closing one. -/
def scanQuoted : List Char → Quoted → Option (Quoted × List Char)
  | [], _ => none
  | '"' :: rest, q => some (q, rest)
  | '\\' :: 'u' :: a :: b :: c :: d :: rest, q =>
    match hexFour? a b c d with
    | none => none
    | some unit =>
      if isHighHalf unit then
        match lowHalf? rest with
        | some low => scanQuoted (rest.drop 6) (q.push (pairedChar unit low))
        | none => scanQuoted rest q.spoil
      else if isLowHalf unit then scanQuoted rest q.spoil
      else scanQuoted rest (q.push (Char.ofNat unit))
  | '\\' :: c :: rest, q =>
    match escaped? c with
    | some plain => scanQuoted rest (q.push plain)
    | none => none
  | c :: rest, q => if c = '\\' ∨ c.toNat < 32 then none else scanQuoted rest (q.push c)
termination_by cs => cs.length

/-- A whole number where it fits, and the nearest double otherwise; a minus in front of zero makes
it a double. -/
def wholeOrDouble (negative : Bool) (n : Nat) : Number :=
  if negative then
    if n = 0 ∨ Nat.pow 2 63 < n then .double (Decimal.toDouble ⟨true, n, 0⟩) else .int (-(n : Int))
  else if n < Nat.pow 2 64 then .int n
  else .double (Decimal.toDouble ⟨false, n, 0⟩)

/-- A double as a source: beyond the range it cannot be read. -/
def ofDouble (d : Double) : Source :=
  if d.isInfinite then .unreadable else .number (.double d)

/-- The digits at the start of a text and the rest. -/
def spanDigits (cs : List Char) : List Char × List Char :=
  (cs.takeWhile Numeral.isDigit, cs.dropWhile Numeral.isDigit)

/-- The exponent of a number: no `e` at all, or one with a sign and digits behind it. -/
def scanExponent : List Char → Option (Option Int × List Char)
  | [] => some (none, [])
  | c :: rest =>
    if c = 'e' ∨ c = 'E' then
      let (negative, afterSign) := Decimal.readSign rest
      let (digits, left) := spanDigits afterSign
      if digits.isEmpty then none
      else some (some (if negative then -(Numeral.read digits : Int) else Numeral.read digits), left)
    else some (none, c :: rest)

/-- The fraction of a number: no point at all, or one with digits behind it. -/
def scanFraction : List Char → Option (Option (List Char) × List Char)
  | '.' :: rest =>
    let (digits, left) := spanDigits rest
    if digits.isEmpty then none else some (some digits, left)
  | cs => some (none, cs)

/-- Reads a number: a minus or nothing, digits without a leading zero, a fraction, an exponent. -/
def scanNumber (cs : List Char) : Source × List Char :=
  let (negative, unsigned) := match cs with
    | '-' :: rest => (true, rest)
    | cs => (false, cs)
  let (whole, afterWhole) := spanDigits unsigned
  if whole.isEmpty ∨ (whole.head? = some '0' ∧ 1 < whole.length) then (.broken, [])
  else match scanFraction afterWhole with
    | none => (.broken, [])
    | some (fraction, afterFraction) =>
      match scanExponent afterFraction with
      | none => (.broken, [])
      | some (exponent, rest) =>
        match fraction, exponent with
        | none, none =>
          let number := wholeOrDouble negative (Numeral.read whole)
          (match number with
            | .double d => ofDouble d
            | .int i => .number (.int i), rest)
        | fraction, exponent =>
          let fraction := fraction.getD []
          let decimal : Decimal :=
            { negative, coefficient := Numeral.read (whole ++ fraction),
              exponent := exponent.getD 0 - fraction.length }
          (ofDouble decimal.toDouble, rest)

/-- Reads the rest of a fixed word. -/
def scanWord (word : List Char) (meaning : Source) (cs : List Char) : Source × List Char :=
  if word.isPrefixOf cs then (meaning, cs.drop word.length) else (.broken, [])

/-- A quoted text as a source. -/
def scanText (cs : List Char) : Source × List Char :=
  match scanQuoted cs ⟨[], true⟩ with
  | none => (.broken, [])
  | some (q, rest) =>
    (if q.readable then .string (String.ofList q.reversed.reverse) else .unreadable, rest)

/-- A container, unless it is nested too deep to be read. -/
def atDepth (depth : Nat) (container : Source) : Source :=
  if depth ≤ depthLimit then container
  else if container.isComplete then .unreadable
  else .broken

mutual

/-- Reads a value that stands inside `depth` containers. -/
def scanValue (fuel depth : Nat) (cs : List Char) : Source × List Char :=
  match fuel with
  | 0 => (.broken, [])
  | fuel + 1 =>
    match skipBlanks cs with
    | [] => (.broken, [])
    | '"' :: rest => scanText rest
    | '[' :: rest =>
      let (items, ending, rest) := scanItems fuel (depth + 1) true (skipBlanks rest) []
      (atDepth (depth + 1) (.list items ending), rest)
    | '\x7b' :: rest =>
      let (entries, ending, rest) := scanEntries fuel (depth + 1) true (skipBlanks rest) [] .closed
      (atDepth (depth + 1) (.record entries ending), rest)
    | 'n' :: rest => scanWord ['u', 'l', 'l'] .null rest
    | 't' :: rest => scanWord ['r', 'u', 'e'] (.bool true) rest
    | 'f' :: rest => scanWord ['a', 'l', 's', 'e'] (.bool false) rest
    | cs => scanNumber cs

/-- Reads the items of a list, and the bracket that closes it. -/
def scanItems (fuel depth : Nat) (first : Bool) (cs : List Char) (done : List Source) :
    List Source × Ending × List Char :=
  match fuel with
  | 0 => (done.reverse, .broken, [])
  | fuel + 1 =>
    match cs with
    | ']' :: rest => (done.reverse, .closed, rest)
    | ',' :: rest =>
      if first then (done.reverse, .broken, [])
      else match skipBlanks rest with
        | ']' :: _ => (done.reverse, .broken, [])
        | rest =>
          let (item, rest) := scanValue fuel depth rest
          scanItems fuel depth false (skipBlanks rest) (item :: done)
    | cs =>
      if first ∧ cs ≠ [] then
        let (item, rest) := scanValue fuel depth cs
        scanItems fuel depth false (skipBlanks rest) (item :: done)
      else (done.reverse, .broken, [])

/-- Reads the entries of a record, and the brace that closes it. Behind a name that cannot be read
the entries still have to make sense, but are not kept. -/
def scanEntries (fuel depth : Nat) (first : Bool) (cs : List Char) (done : List (String × Source))
    (soFar : Ending) : List (String × Source) × Ending × List Char :=
  match fuel with
  | 0 => (done.reverse, .broken, [])
  | fuel + 1 =>
    match cs with
    | '\x7d' :: rest => (done.reverse, soFar, rest)
    | cs =>
      let start := match first, cs with
        | true, cs => some cs
        | false, ',' :: rest => some (skipBlanks rest)
        | false, _ => none
      match start with
      | some ('"' :: rest) =>
        match scanQuoted rest ⟨[], true⟩ with
        | none => (done.reverse, .broken, [])
        | some (q, rest) =>
          let soFar := if q.readable then soFar else .unreadable
          let name := String.ofList q.reversed.reverse
          match skipBlanks rest with
          | ':' :: rest =>
            let (value, rest) := scanValue fuel depth rest
            let done := if soFar = .closed then (name, value) :: done else done
            let soFar := if value.isComplete ∨ soFar = .closed then soFar else .broken
            scanEntries fuel depth false (skipBlanks rest) done soFar
          | _ =>
            let done := if soFar = .closed then (name, .broken) :: done else done
            (done.reverse, .broken, [])
      | _ => (done.reverse, .broken, [])

end

/-- A text as a source: one value with nothing but white space behind it, where `true` says that
nothing else is there. -/
def scan (text : String) : Source × Bool :=
  let cs := text.toList
  let (source, rest) := scanValue (2 * cs.length + 2) 0 cs
  (source, (skipBlanks rest).isEmpty)

end Outreach.Source

namespace Outreach.Reader

variable {α : Type}

/-- Reads a whole JSON text. What stands behind the value is looked at last. -/
def ofJsonText (read : Reader α) (text : String) : Reads α := do
  let (source, ended) := Source.scan text
  let value ← read .json source
  if ended then .ok value else .error .malformed

end Outreach.Reader

namespace Outreach.Json

/-- The value that a JSON text stands for. -/
def parse? (text : String) : Option Json :=
  (Reader.any.ofJsonText text).toOption

end Outreach.Json
