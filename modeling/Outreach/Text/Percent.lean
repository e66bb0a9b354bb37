import Outreach.Number.Hexadecimal

/-!
# Percent signs in place of characters

A character that must not stand in a text is written as the bytes of its UTF-8 form, each one as a
percent sign with two hexadecimal digits. `bytes` undoes it.
-/

namespace Outreach.Percent

/-- A byte as a percent sign with two digits. -/
def byte (b : UInt8) : List Char :=
  ['%', Hexadecimal.upperDigit (b.toNat / 16), Hexadecimal.upperDigit (b.toNat % 16)]

/-- A character, as it is or as its bytes. -/
def encodeChar (mustEncode : Char → Bool) (c : Char) : List Char :=
  if mustEncode c then (String.utf8EncodeChar c).flatMap byte else [c]

/-- A text in which the characters of a class stand as their bytes. -/
def encode (mustEncode : Char → Bool) (cs : List Char) : List Char :=
  cs.flatMap (encodeChar mustEncode)

/-- The bytes that a text stands for; a percent sign without two digits behind it stands for
itself. -/
def bytes : List Char → List UInt8
  | [] => []
  | '%' :: a :: b :: rest =>
    match Hexadecimal.read? [a, b] with
    | some n => n.toUInt8 :: bytes rest
    | none => String.utf8EncodeChar '%' ++ bytes (a :: b :: rest)
  | c :: rest => String.utf8EncodeChar c ++ bytes rest
termination_by cs => cs.length

/-- The text that a text with percent signs stands for, if it is one. -/
def decode? (cs : List Char) : Option String :=
  String.fromUTF8? ⟨(bytes cs).toArray⟩

end Outreach.Percent
