import Outreach.Source.Record
import Outreach.Toml.Number
import Outreach.Toml.Quoted
import Outreach.Toml.Table

/-!
# TOML texts as sources

A TOML text consists of lines: headings of tables, and names with their values. A text with a fault
anywhere in it has no meaning at all.
-/

namespace Outreach.Toml

/-- A character of a name without quotes. -/
def isNameChar (c : Char) : Bool :=
  Numeral.isDigit c || ('a' ≤ c && c ≤ 'z') || ('A' ≤ c && c ≤ 'Z') || c = '-' || c = '_'

/-- A name, with or without quotes. -/
def name? (cs : List Char) : Option (String × List Char) :=
  match cs with
  | '"' :: rest => (basic? rest []).map fun (name, rest) => (String.ofList name, rest)
  | '\'' :: rest => (literal? rest).map fun (name, rest) => (String.ofList name, rest)
  | cs =>
    let name := cs.takeWhile isNameChar
    if name.isEmpty then none else some (String.ofList name, cs.drop name.length)

/-- Names with points between them and blanks around them. -/
def path? (cs : List Char) : Option (List String × List Char) :=
  match name? (skipBlanks cs) with
  | none => none
  | some (name, rest) =>
    match skipBlanks rest with
    | '.' :: behind =>
      if behind.length < cs.length then
        (path? behind).map fun (names, rest) => (name :: names, rest)
      else none
    | rest => some ([name], rest)
termination_by cs.length

/-- What follows a comment. -/
def skipComment (cs : List Char) : List Char :=
  match cs with
  | '#' :: rest => rest.dropWhile isPlain
  | cs => cs

/-- What follows white space, comments and line breaks. -/
def skipLines (cs : List Char) : List Char :=
  let behind := skipComment (skipBlanks cs)
  match pastBreak? behind with
  | some rest => if rest.length < cs.length then skipLines rest else behind
  | none => behind
termination_by cs.length

/-- What follows the end of a line, blanks and a comment before it. -/
def lineEnd? (cs : List Char) : Option (List Char) :=
  match skipComment (skipBlanks cs) with
  | [] => some []
  | cs => pastBreak? cs

/-- A value that is no collection. -/
def simple? (cs : List Char) : Option (Source × List Char) :=
  match cs with
  | 't' :: 'r' :: 'u' :: 'e' :: rest => some (.bool true, rest)
  | 'f' :: 'a' :: 'l' :: 's' :: 'e' :: rest => some (.bool false, rest)
  | '"' :: _ | '\'' :: _ =>
    (text? cs).map fun (text, rest) => (.string (String.ofList text), rest)
  | cs => (moment? cs).or (number? cs)

mutual

/-- A value. Collections may be nested up to a depth. -/
def value? : (depth fuel : Nat) → List Char → Option (Source × List Char)
  | depth + 1, fuel + 1, '[' :: rest =>
    (items? depth fuel rest).map fun (items, rest) => (.list items .closed, rest)
  | depth + 1, fuel + 1, '\x7b' :: rest =>
    match skipBlanks rest with
    | '\x7d' :: rest => some (.record [] .closed, rest)
    | rest =>
      (members? depth fuel [] rest).map fun (t, rest) => (.record (Item.sources t) .closed, rest)
  | _, _, cs => simple? cs

/-- The items of a list; a comma may follow the last one. -/
def items? : (depth fuel : Nat) → List Char → Option (List Source × List Char)
  | _, 0, _ => none
  | depth, fuel + 1, cs =>
    match skipLines cs with
    | ']' :: rest => some ([], rest)
    | cs =>
      match value? depth fuel cs with
      | none => none
      | some (item, rest) =>
        match skipLines rest with
        | ']' :: rest => some ([item], rest)
        | ',' :: rest => (items? depth fuel rest).map fun (items, rest) => (item :: items, rest)
        | _ => none

/-- The members of a table in braces. -/
def members? : (depth fuel : Nat) → Table → List Char → Option (Table × List Char)
  | _, 0, _, _ => none
  | depth, fuel + 1, t, cs =>
    match path? cs with
    | some (path, '=' :: rest) =>
      match value? depth fuel (skipBlanks rest) with
      | none => none
      | some (value, rest) =>
        match t.assign? value path.dropLast (path.getLast?.getD ""), skipBlanks rest with
        | some t, ',' :: rest => members? depth fuel t rest
        | some t, '\x7d' :: rest => some (t, rest)
        | _, _ => none
    | _ => none

end

/-- How deep collections may be nested. -/
def depthLimit : Nat := 79

/-- Reads the lines of a text into a table; `path` is the heading that they stand under. -/
def readLines? (path : List String) (t : Table) (cs : List Char) : Option Table :=
  let onward (path : List String) (t : Option Table) (rest : List Char) : Option Table :=
    match t, lineEnd? rest with
    | some t, some rest => if rest.length < cs.length then readLines? path t rest else none
    | _, _ => none
  match skipLines cs with
  | [] => some t
  | '[' :: '[' :: rest =>
    match path? rest with
    | some (path, ']' :: ']' :: rest) =>
      onward path (t.alter? (Table.extend? (path.getLast?.getD "")) path.dropLast) rest
    | _ => none
  | '[' :: rest =>
    match path? rest with
    | some (path, ']' :: rest) =>
      onward path (t.alter? (Table.define? (path.getLast?.getD "")) path.dropLast) rest
    | _ => none
  | line =>
    match path? line with
    | some (names, '=' :: rest) =>
      match value? depthLimit rest.length (skipBlanks rest) with
      | some (value, rest) =>
        onward path
          (t.alter? (Table.assign? value names.dropLast (names.getLast?.getD "")) path) rest
      | none => none
    | _ => none
termination_by cs.length

/-- A text as a source. A byte order mark at its start does not belong to it. -/
def read (text : String) : Source :=
  let cs := match text.toList with
    | '\ufeff' :: rest => rest
    | cs => cs
  match readLines? [] [] cs with
  | some t => .record (Item.sources t) .closed
  | none => .broken

end Outreach.Toml

namespace Outreach.Reader

/-- Reads from a TOML text. -/
def ofTomlText {α : Type} (read : Reader α) (text : String) : Reads α :=
  read .settings (Toml.read text)

end Outreach.Reader
