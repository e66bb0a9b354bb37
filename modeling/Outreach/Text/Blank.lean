import Outreach.Text.CharClass

/-!
# Blank characters

The characters that Unicode calls white space: the ASCII ones, the no-break space, the ideographic
space and the spaces of various widths, but neither the zero-width ones nor the byte order mark.
-/

namespace Outreach.Text

/-- The boundaries of the Unicode property of white space. -/
def blanks : CharClass :=
  [0x09, 0x0E, 0x20, 0x21, 0x85, 0x86, 0xA0, 0xA1, 0x1680, 0x1681, 0x2000, 0x200B, 0x2028, 0x202A,
   0x202F, 0x2030, 0x205F, 0x2060, 0x3000, 0x3001]

/-- Whether a character is white space. -/
def isBlank (c : Char) : Bool :=
  blanks.member c

/-- A text without the white space at its start. -/
def trimStart (cs : List Char) : List Char :=
  cs.dropWhile isBlank

/-- A text without the white space at its end. -/
def trimEnd (cs : List Char) : List Char :=
  (cs.reverse.dropWhile isBlank).reverse

/-- A text without the white space at either end. -/
def trim (cs : List Char) : List Char :=
  trimEnd (trimStart cs)

/-- Whether a text consists of white space only, or of nothing. -/
def isBlankText (s : String) : Bool :=
  s.toList.all isBlank

end Outreach.Text
