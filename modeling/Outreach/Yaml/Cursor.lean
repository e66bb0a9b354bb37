import Outreach.Number.Numeral

/-!
# Places in a YAML text

A cursor is a place in a text with its line and column, on which indentation hangs. White space
inside a text is taken up as a `Gap`, which is folded into what stands for it: blanks stay, one line
break becomes a space, and of several the first one is dropped.
-/

namespace Outreach.Yaml

/-- A space or a tab. -/
def isBlank (c : Char) : Bool :=
  c = ' ' || c = '\t'

/-- A line break: a return, a line feed, or one of the three breaks beyond ASCII. -/
def isBreak (c : Char) : Bool :=
  c = '\r' || c = '\n' || c = '\u0085' || c = '\u2028' || c = '\u2029'

/-- Whether a text ends or begins with white space. -/
def isBlankOrEnd (cs : List Char) : Bool :=
  cs.head?.all fun c => isBlank c || isBreak c

/-- Whether a character may occur in a text at all. -/
def isPermitted (c : Char) : Bool :=
  let n := c.toNat
  n = 0x09 || n = 0x0A || n = 0x0D || (0x20 ≤ n && n ≤ 0x7E) || n = 0x85 ||
    (0xA0 ≤ n && n ≤ 0xD7FF) || (0xE000 ≤ n && n ≤ 0xFFFD) || 0x10000 ≤ n

/-- A letter or digit of ASCII, a hyphen or an underscore. -/
def isNameChar (c : Char) : Bool :=
  Numeral.isDigit c || ('a' ≤ c && c ≤ 'z') || ('A' ≤ c && c ≤ 'Z') || c = '-' || c = '_'

/-- A bracket or comma of a collection in brackets. -/
def isFlowMark (c : Char) : Bool :=
  c = ',' || c = '[' || c = ']' || c = '\x7b' || c = '\x7d'

/-- A place in a text. -/
structure Cursor where
  rest : List Char
  index : Nat
  line : Nat
  column : Nat

namespace Cursor

/-- The beginning of a text. -/
def start (cs : List Char) : Cursor :=
  ⟨cs, 0, 0, 0⟩

/-- The character at a place. -/
def head? (c : Cursor) : Option Char :=
  c.rest.head?

/-- The place some characters further on the same line. -/
def skip (c : Cursor) (count : Nat) : Cursor :=
  { c with rest := c.rest.drop count, index := c.index + count, column := c.column + count }

/-- The next line, if a line ends here, and what is kept of the break. A return with or without a
line feed and the break of ISO 6429 are kept as a line feed. -/
def nextLine? (c : Cursor) : Option (Char × Cursor) :=
  match c.rest with
  | '\r' :: '\n' :: rest => some ('\n', ⟨rest, c.index + 2, c.line + 1, 0⟩)
  | d :: rest =>
    if isBreak d then
      some (if d = '\u2028' ∨ d = '\u2029' then d else '\n', ⟨rest, c.index + 1, c.line + 1, 0⟩)
    else none
  | [] => none

/-- The next line, if a line ends here; else the same place. -/
def pastBreak (c : Cursor) : Cursor :=
  (c.nextLine?.map Prod.snd).getD c

/-- Whether a line begins here with a mark of three characters and nothing behind it. -/
def isAtMark (c : Cursor) (mark : List Char) : Bool :=
  c.column == 0 && mark.isPrefixOf c.rest && isBlankOrEnd (c.rest.drop 3)

/-- Whether the beginning or the end of a document is marked here. -/
def isAtDocumentMark (c : Cursor) : Bool :=
  c.isAtMark ['-', '-', '-'] || c.isAtMark ['.', '.', '.']

/-- The place behind the characters of a class on the same line. -/
def skipWhile (c : Cursor) (p : Char → Bool) : Cursor :=
  c.skip (c.rest.takeWhile p).length

/-- The place behind a comment. -/
def pastComment (c : Cursor) : Cursor :=
  if c.head? = some '#' then c.skipWhile fun d => !isBreak d else c

theorem length_lt_of_nextLine? {c next : Cursor} {kept : Char} (h : c.nextLine? = some (kept, next)) :
    next.rest.length < c.rest.length := by
  simp only [nextLine?] at h
  split at h
  · next rest hr =>
    simp only [Option.some.injEq, Prod.mk.injEq] at h
    rw [← h.2, hr]; simp only [List.length_cons]; omega
  · next d rest _ hr =>
    split at h
    · simp only [Option.some.injEq, Prod.mk.injEq] at h
      rw [← h.2, hr]; simp only [List.length_cons]; omega
    · simp at h
  · simp at h

end Cursor

/-- White space inside a text: the blanks before the first line break, the first break and the
others, last first. A break that was escaped counts as broken and is not kept. -/
structure Gap where
  blanks : List Char
  first : Option Char
  others : List Char
  broken : Bool

namespace Gap

/-- No white space yet. -/
def empty : Gap :=
  ⟨[], none, [], false⟩

/-- A line break that was escaped. -/
def escaped : Gap :=
  { empty with broken := true }

/-- One more blank; blanks at the start of a line count for nothing. -/
def blank (g : Gap) (c : Char) : Gap :=
  if g.broken then g else { g with blanks := c :: g.blanks }

/-- One more line break. -/
def lineBreak (g : Gap) (kept : Char) : Gap :=
  if g.broken then { g with others := kept :: g.others }
  else ⟨[], some kept, [], true⟩

/-- What a gap stands for. -/
def text (g : Gap) : List Char :=
  if g.broken then
    match g.first with
    | some '\n' => if g.others.isEmpty then [' '] else g.others.reverse
    | first => first.toList ++ g.others.reverse
  else g.blanks.reverse

end Gap

namespace Cursor

/-- Takes up white space. Inside a text without quotes a tab must not stand where the indentation
`indent` is not reached yet. -/
def gap? (indent : Nat) (c : Cursor) (g : Gap) : Option (Gap × Cursor) :=
  match h : c.nextLine? with
  | some (kept, next) =>
    have : next.rest.length < c.rest.length := length_lt_of_nextLine? h
    gap? indent next (g.lineBreak kept)
  | none =>
    match hr : c.rest with
    | [] => some (g, c)
    | d :: _ =>
      have : (c.skip 1).rest.length < c.rest.length := by simp [skip, hr]
      if isBlank d then
        if d = '\t' && g.broken && c.column < indent then none
        else gap? indent (c.skip 1) (g.blank d)
      else some (g, c)
termination_by c.rest.length

end Cursor

end Outreach.Yaml
