import Outreach.Json.Basic
import Outreach.Number.Hexadecimal
import Outreach.Number.Notation

/-!
# Written values

The compact form: no blanks, members in order, and in a text only the quote, the backslash and the
control characters below the space are escaped. The laid-out form puts every item and member on a
line of its own, two blanks further in than its container.
-/

namespace Outreach.Json

/-- Doubles are written with a point or an exponent, so that they read back as doubles:
positionally from `10 ^ (-5)` to below `10 ^ 16`. -/
def numberStyle : NumberStyle where
  tie := .toEven
  positional := fun place => -5 < place && place ≤ 16
  wholeEnd := ".0"
  plus := true
  signedZero := true

/-- The written form of a number. -/
def renderNumber : Number → List Char
  | .int i => (Numeral.intText i).toList
  | .double d => (numberStyle.render d).toList

/-- One character inside quotes. -/
def escape (c : Char) : List Char :=
  if c = '"' then ['\\', '"']
  else if c = '\\' then ['\\', '\\']
  else if c = '\x08' then ['\\', 'b']
  else if c = '\x0c' then ['\\', 'f']
  else if c = '\n' then ['\\', 'n']
  else if c = '\r' then ['\\', 'r']
  else if c = '\t' then ['\\', 't']
  else if c.toNat < 32 then
    ['\\', 'u', '0', '0', Hexadecimal.digit (c.toNat / 16), Hexadecimal.digit (c.toNat % 16)]
  else [c]

/-- A text between quotes. -/
def renderText (s : String) : List Char :=
  '"' :: s.toList.flatMap escape ++ ['"']

mutual

/-- The compact form of a value. -/
def render : Json → List Char
  | .null => ['n', 'u', 'l', 'l']
  | .bool true => ['t', 'r', 'u', 'e']
  | .bool false => ['f', 'a', 'l', 's', 'e']
  | .number n => renderNumber n
  | .string s => renderText s
  | .array items => '[' :: renderItems items ++ [']']
  | .object members => '\x7b' :: renderMembers members ++ ['\x7d']

/-- Items with commas between them. -/
def renderItems : List Json → List Char
  | [] => []
  | [item] => render item
  | item :: rest => render item ++ ',' :: renderItems rest

/-- Members with commas between them. -/
def renderMembers : List (String × Json) → List Char
  | [] => []
  | [(name, value)] => renderText name ++ ':' :: render value
  | (name, value) :: rest => renderText name ++ ':' :: render value ++ ',' :: renderMembers rest

end

/-- The compact form as a string. -/
def compact (v : Json) : String :=
  String.ofList v.render

/-- A line break and the blanks that begin a line at a depth. -/
def newLine (depth : Nat) : List Char :=
  '\n' :: List.replicate (2 * depth) ' '

mutual

/-- The laid-out form of a value at a depth. An empty container stays on its line. -/
def layOut (depth : Nat) : Json → List Char
  | .array [] => ['[', ']']
  | .array (item :: rest) =>
    '[' :: newLine (depth + 1) ++ layOutItems (depth + 1) (item :: rest) ++ newLine depth ++ [']']
  | .object [] => ['\x7b', '\x7d']
  | .object (entry :: rest) =>
    '\x7b' :: newLine (depth + 1) ++ layOutMembers (depth + 1) (entry :: rest) ++
      newLine depth ++ ['\x7d']
  | .null => ['n', 'u', 'l', 'l']
  | .bool true => ['t', 'r', 'u', 'e']
  | .bool false => ['f', 'a', 'l', 's', 'e']
  | .number n => renderNumber n
  | .string s => renderText s

def layOutItems (depth : Nat) : List Json → List Char
  | [] => []
  | [item] => layOut depth item
  | item :: rest => layOut depth item ++ ',' :: newLine depth ++ layOutItems depth rest

def layOutMembers (depth : Nat) : List (String × Json) → List Char
  | [] => []
  | [(name, value)] => renderText name ++ ':' :: ' ' :: layOut depth value
  | (name, value) :: rest =>
    renderText name ++ ':' :: ' ' :: layOut depth value ++ ',' :: newLine depth ++
      layOutMembers depth rest

end

/-- The laid-out form as a string. -/
def pretty (v : Json) : String :=
  String.ofList (v.layOut 0)

end Outreach.Json
