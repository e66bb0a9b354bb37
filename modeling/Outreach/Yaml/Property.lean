import Outreach.Yaml.Cursor
import Outreach.Number.Hexadecimal

/-!
# Names, tags and directives

What stands before a value to say more about it, and what stands before a document.
-/

namespace Outreach.Yaml

/-- A name behind its mark, and the place behind it. It is not empty, and white space or one of a
few marks follows it. -/
def name? (c : Cursor) : Option (String × Cursor) :=
  let name := c.rest.takeWhile isNameChar
  let next := c.skip name.length
  let ends := next.rest.head?.any fun d =>
    ['?', ':', ',', ']', '\x7d', '%', '@', Char.ofNat 96].contains d
  if name.isEmpty || !(isBlankOrEnd next.rest || ends) then none
  else some (String.ofList name, next)

/-- The characters that may stand in a tag; some only where it stands between angle brackets. -/
def isTagChar (bracketed : Bool) (c : Char) : Bool :=
  isNameChar c ||
    [';', '/', '?', ':', '@', '&', '=', '+', '$', '.', '%', '!', '~', '*', '\'', '(', ')'].contains c ||
    (bracketed && [',', '[', ']'].contains c)

/-- The number of further bytes of a character, by its first byte. -/
def trailingBytes? (first : Nat) : Option Nat :=
  if first < 0x80 then some 0
  else if 0xC0 ≤ first ∧ first < 0xE0 then some 1
  else if 0xE0 ≤ first ∧ first < 0xF0 then some 2
  else if 0xF0 ≤ first ∧ first < 0xF8 then some 3
  else none

/-- Bytes written as percent signs with two digits each, and the rest. -/
def percentBytes? : (count : Nat) → List Char → Option (List Nat × List Char)
  | 0, cs => some ([], cs)
  | count + 1, '%' :: a :: b :: rest =>
    match Hexadecimal.read? [a, b], percentBytes? count rest with
    | some byte, some (bytes, rest) => some (byte :: bytes, rest)
    | _, _ => none
  | _, _ => none

/-- The characters of a tag; a character may be written as the bytes of its UTF-8 form. -/
def tagText? (bracketed : Bool) (cs : List Char) : Option (List Char × List Char) :=
  match cs with
  | [] => some ([], [])
  | '%' :: a :: b :: rest =>
    match (Hexadecimal.read? [a, b]).bind fun first => (trailingBytes? first).bind fun more =>
        (percentBytes? more rest).map fun (bytes, rest) => (first :: bytes, rest) with
    | none => none
    | some (bytes, left) =>
      match String.fromUTF8? ⟨(bytes.map Nat.toUInt8).toArray⟩ with
      | none => none
      | some s =>
        if left.length ≤ rest.length then
          (tagText? bracketed left).map fun (text, rest) => (s.toList ++ text, rest)
        else none
  | c :: rest =>
    if c = '%' then none
    else if isTagChar bracketed c then
      (tagText? bracketed rest).map fun (text, rest) => (c :: text, rest)
    else some ([], c :: rest)
termination_by cs.length

/-- A tag as it is written: the handle of a shorthand and what follows it. -/
structure TagName where
  handle : String
  suffix : String

/-- The handle of a tag: a mark, and a name with another mark behind it where there is one. -/
def tagHandle (cs : List Char) : List Char :=
  match cs with
  | '!' :: rest =>
    let name := rest.takeWhile isNameChar
    if (rest.drop name.length).head? = some '!' then '!' :: (name ++ ['!']) else '!' :: name
  | _ => []

/-- What a tag says, behind its handle or in full. -/
def tagName? (cs : List Char) : Option (TagName × List Char) :=
  match cs with
  | '!' :: '<' :: rest =>
    match tagText? true rest with
    | some (text, '>' :: rest) => if text.isEmpty then none else some (⟨"", String.ofList text⟩, rest)
    | _ => none
  | cs =>
    let handle := tagHandle cs
    match tagText? false (cs.drop handle.length) with
    | none => none
    | some (text, rest) =>
      if 1 < handle.length ∧ handle.getLast? = some '!' then
        if text.isEmpty then none else some (⟨String.ofList handle, String.ofList text⟩, rest)
      else if (handle.tail ++ text).isEmpty then some (⟨"", "!"⟩, rest)
      else some (⟨"!", String.ofList (handle.tail ++ text)⟩, rest)

/-- A tag and the place behind it; white space follows it, or a comma inside brackets. -/
def tag? (inFlow : Bool) (c : Cursor) : Option (TagName × Cursor) :=
  match tagName? c.rest with
  | none => none
  | some (tag, rest) =>
    if isBlankOrEnd rest || (inFlow && rest.head? = some ',') then
      some (tag, c.skip (c.rest.length - rest.length))
    else none

/-- What is said about all of a document. -/
inductive Directive where
  | version (major minor : Nat)
  | shorthand (handle start : String)

/-- A number of at most nine digits. -/
def versionPart? (cs : List Char) : Option (Nat × List Char) :=
  let digits := cs.takeWhile Numeral.isDigit
  if digits.isEmpty ∨ 9 < digits.length then none
  else some (Numeral.read digits, cs.drop digits.length)

/-- A text without the blanks at its start. -/
def pastBlanks (cs : List Char) : List Char :=
  cs.dropWhile isBlank

/-- What a directive says, behind its name. -/
def directiveBody? (name : String) (cs : List Char) : Option (Directive × List Char) :=
  match name with
  | "YAML" =>
    match versionPart? (pastBlanks cs) with
    | some (major, '.' :: rest) =>
      (versionPart? rest).map fun (minor, rest) => (.version major minor, rest)
    | _ => none
  | "TAG" =>
    let cs := pastBlanks cs
    let handle := tagHandle cs
    let behind := cs.drop handle.length
    if handle.isEmpty ∨ (1 < handle.length ∧ handle.getLast? ≠ some '!') ∨
        !(behind.head?.any isBlank) then none
    else match tagText? true (pastBlanks behind) with
      | some (start, rest) =>
        if start.isEmpty || !isBlankOrEnd rest then none
        else some (.shorthand (String.ofList handle) (String.ofList start), rest)
      | none => none
  | _ => none

/-- A directive behind its mark, and the beginning of the line after it. -/
def directive? (c : Cursor) : Option (Directive × Cursor) :=
  let name := c.rest.takeWhile isNameChar
  let behind := c.rest.drop name.length
  if name.isEmpty || !isBlankOrEnd behind then none
  else match directiveBody? (String.ofList name) behind with
    | none => none
    | some (directive, rest) =>
      let ended := ((c.skip (c.rest.length - rest.length)).skipWhile isBlank).pastComment
      if ended.rest.isEmpty || ended.nextLine?.isSome then some (directive, ended.pastBreak) else none

end Outreach.Yaml
