import Outreach.Number.Hexadecimal

/-!
# Texts in a TOML text

A text stands in double quotes, where there are escapes, or in single quotes, where there are none;
with three quotes on either side it may run over several lines. Each is read from behind its opening
quotes.
-/

namespace Outreach.Toml

/-- A space or a tab. -/
def isBlank (c : Char) : Bool :=
  c = ' ' || c = '\t'

/-- A character that may stand in comments and texts: no control character but the tab. -/
def isPlain (c : Char) : Bool :=
  c = '\t' || (32 ≤ c.toNat && c.toNat ≠ 127)

/-- A text without the blanks at its start. -/
def skipBlanks (cs : List Char) : List Char :=
  cs.dropWhile isBlank

/-- What follows a line break, if a text begins with one: a line feed, perhaps behind a return. -/
def pastBreak? : List Char → Option (List Char)
  | '\n' :: rest => some rest
  | '\r' :: '\n' :: rest => some rest
  | _ => none

/-- A text without the blanks and line breaks at its start. -/
def skipSpace : List Char → List Char
  | '\r' :: '\n' :: rest => skipSpace rest
  | c :: rest => if isBlank c || c = '\n' then skipSpace rest else c :: rest
  | [] => []

/-- The character that a letter stands for behind a backslash. -/
def escaped? (c : Char) : Option Char :=
  match c with
  | 'b' => some '\x08'
  | 't' => some '\t'
  | 'n' => some '\n'
  | 'f' => some '\x0c'
  | 'r' => some '\r'
  | '"' | '\\' => some c
  | _ => none

/-- The character that a row of hexadecimal digits stands for. -/
def hexChar? (digits : List Char) : Option Char :=
  ((Hexadecimal.read? digits).filter Nat.isValidChar).map Char.ofNat

/-- The character of an escape behind its backslash, and the rest. -/
def escape? : List Char → Option (Char × List Char)
  | [] => none
  | c :: rest =>
    let width := if c = 'u' then 4 else if c = 'U' then 8 else 0
    if width = 0 then (escaped? c).map fun plain => (plain, rest)
    else if rest.length < width then none
    else (hexChar? (rest.take width)).map fun plain => (plain, rest.drop width)

/-- A text on one line in double quotes. -/
def basic? (cs reversed : List Char) : Option (List Char × List Char) :=
  match cs with
  | [] => none
  | '"' :: rest => some (reversed.reverse, rest)
  | '\\' :: rest =>
    match escape? rest with
    | none => none
    | some (c, left) => if left.length ≤ rest.length then basic? left (c :: reversed) else none
  | c :: rest => if isPlain c then basic? rest (c :: reversed) else none
termination_by cs.length

/-- A text on one line in single quotes. -/
def literal? : List Char → Option (List Char × List Char)
  | [] => none
  | c :: rest =>
    if c = '\'' then some ([], rest)
    else if isPlain c then (literal? rest).map fun (text, rest) => (c :: text, rest)
    else none

/-- What becomes of quotes inside a text between three of them: with fewer than three the text goes
on, with more, up to two belong to the text before the closing ones. -/
def closing? (quote : Char) (cs : List Char) : Option (Nat × List Char) :=
  let run := (cs.takeWhile (· = quote)).length
  if run < 3 then none
  else
    let inside := min (run - 3) 2
    some (inside, cs.drop (inside + 3))

/-- A text on several lines in double quotes. A backslash at the end of a line takes the line break
and all white space behind it along. -/
def basicLines? (cs reversed : List Char) : Option (List Char × List Char) :=
  match cs with
  | [] => none
  | '"' :: rest =>
    match closing? '"' ('"' :: rest) with
    | some (inside, left) => some (reversed.reverse ++ List.replicate inside '"', left)
    | none => basicLines? rest ('"' :: reversed)
  | '\\' :: rest =>
    match pastBreak? (skipBlanks rest) with
    | some behind =>
      if (skipSpace behind).length ≤ rest.length then basicLines? (skipSpace behind) reversed
      else none
    | none =>
      match escape? rest with
      | none => none
      | some (c, left) => if left.length ≤ rest.length then basicLines? left (c :: reversed) else none
  | '\r' :: '\n' :: rest => basicLines? rest ('\n' :: reversed)
  | c :: rest => if isPlain c || c = '\n' then basicLines? rest (c :: reversed) else none
termination_by cs.length

/-- A text on several lines in single quotes. -/
def literalLines? (cs reversed : List Char) : Option (List Char × List Char) :=
  match cs with
  | [] => none
  | '\'' :: rest =>
    match closing? '\'' ('\'' :: rest) with
    | some (inside, left) => some (reversed.reverse ++ List.replicate inside '\'', left)
    | none => literalLines? rest ('\'' :: reversed)
  | '\r' :: '\n' :: rest => literalLines? rest ('\n' :: reversed)
  | c :: rest => if isPlain c || c = '\n' then literalLines? rest (c :: reversed) else none

/-- A text behind three quotes; a line break right behind them does not belong to it. -/
def lines? (read : List Char → List Char → Option (List Char × List Char)) (cs : List Char) :
    Option (List Char × List Char) :=
  read ((pastBreak? cs).getD cs) []

/-- A text of any kind, if one begins here. -/
def text? : List Char → Option (List Char × List Char)
  | '"' :: '"' :: '"' :: rest => lines? basicLines? rest
  | '"' :: rest => basic? rest []
  | '\'' :: '\'' :: '\'' :: rest => lines? literalLines? rest
  | '\'' :: rest => literal? rest
  | _ => none

end Outreach.Toml
