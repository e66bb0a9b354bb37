import Outreach.Number.Hexadecimal
import Outreach.Number.Numeral
import Outreach.Text.Quoted
import Outreach.Text.Split

/-!
# Identifiers

An identifier is a number of 128 bits. It is written as 32 hexadecimal digits in groups of 8, 4, 4,
4 and 12 with hyphens between them, and read also without hyphens, in braces or behind
`urn:uuid:`.
-/

namespace Outreach

/-- The identifier of a run, a log entry or an error. -/
structure Identifier where
  value : Nat
  deriving DecidableEq, Repr

namespace Identifier

instance : Inhabited Identifier := ⟨⟨0⟩⟩

/-- The number of digits in each group. -/
def groups : List Nat := [8, 4, 4, 4, 12]

/-- Digits cut into groups of the given lengths. -/
def cut : List Nat → List Char → List (List Char)
  | [], _ => []
  | n :: rest, cs => cs.take n :: cut rest (cs.drop n)

/-- The written form. -/
def render (id : Identifier) : String :=
  String.ofList (List.intercalate ['-'] (cut groups (Hexadecimal.fixed 32 id.value)))

/-- An identifier made of a time in milliseconds, in its first 48 bits, and of something random. -/
def ofClock (milliseconds random : Nat) : Identifier :=
  ⟨(milliseconds % Nat.pow 2 48) * Nat.pow 2 80 + 7 * Nat.pow 2 76 +
    (random / Nat.pow 2 62 % Nat.pow 2 12) * Nat.pow 2 64 + 2 * Nat.pow 2 62 + random % Nat.pow 2 62⟩

/-- Why a text is no identifier. -/
inductive Fault where
  | invalidChar (found : Char) (index : Nat)
  | groupCount (found : Nat)
  | groupLength (group expected found : Nat)
  | length (found : Nat)
  deriving DecidableEq, Repr

namespace Fault

/-- The text of a fault. -/
def message : Fault → String
  | invalidChar found index =>
    "invalid character: found " ++ "`" ++ String.ofList [found] ++ "` at " ++ Numeral.text index
  | groupCount found => "invalid group count: expected 5, found " ++ Numeral.text found
  | groupLength group expected found =>
    "invalid group length in group " ++ Numeral.text group ++ ": expected " ++ Numeral.text expected ++
      ", found " ++ Numeral.text found
  | length found => "invalid length: found " ++ Numeral.text found

end Fault

/-- Takes braces or a heading off a text; the number of characters taken off in front. -/
def unwrap (cs : List Char) : List Char × Nat :=
  match Text.behind? "urn:uuid:".toList cs with
  | some rest => (rest, 9)
  | none =>
    match cs with
    | '\x7b' :: rest =>
      if rest.getLast? = some '\x7d' then (rest.dropLast, 1) else (cs, 0)
    | _ => (cs, 0)

/-- The first group whose length is not the expected one; the last group is measured with whatever
wraps the identifier. -/
def wrongGroup (wrapping position : Nat) : List Nat → List (List Char) → Fault
  | n :: m :: lengths, group :: rest =>
    if group.length = n then wrongGroup wrapping (position + 1) (m :: lengths) rest
    else .groupLength position n group.length
  | [n], [group] => .groupLength position n (group.length + wrapping)
  | _, _ => .groupCount 0

/-- What is wrong with a text that is no identifier: a character that is neither digit nor hyphen, a
wrong number of digits, a wrong number of groups, or a group of the wrong length. -/
def diagnose (cs : List Char) : Fault :=
  let (body, skipped) := unwrap cs
  match body.findIdx? fun c => c ≠ '-' ∧ (Hexadecimal.valueOf? c).isNone with
  | some i => .invalidChar (body.getD i ' ') (i + skipped)
  | none =>
    let parts := Text.split '-' body
    if parts.length = 1 ∧ skipped = 0 then .length body.length
    else if parts.length ≠ 5 then .groupCount parts.length
    else wrongGroup (cs.length - body.length) 0 groups parts

/-- Reads an identifier. -/
def read (text : String) : Except Fault Identifier :=
  let cs := text.toList
  let (body, skipped) := unwrap cs
  let parts := Text.split '-' body
  let shaped := parts.map List.length = groups ∨ (skipped = 0 ∧ parts.map List.length = [32])
  match (if shaped then Hexadecimal.read? parts.flatten else none) with
  | some n => .ok ⟨n⟩
  | none => .error (diagnose cs)

end Identifier

end Outreach
