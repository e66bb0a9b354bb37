import Outreach.Number.Hexadecimal
import Outreach.Yaml.Cursor

/-!
# Texts in a YAML text

A text stands there without quotes, in single or double quotes, or as a block of lines. Each kind is
read from the place where it begins up to the place behind it.
-/

namespace Outreach.Yaml

open Cursor

/-! ## Without quotes -/

/-- The characters up to the next white space or the mark that ends a text without quotes. In
brackets a colon right before another mark of a collection is an error. -/
def wordRun? (inFlow : Bool) : List Char → Option (List Char)
  | [] => some []
  | c :: rest =>
    if isBlank c || isBreak c then some []
    else if c = ':' then
      if inFlow && rest.head?.any (fun d => isFlowMark d || d = '?') then none
      else if isBlankOrEnd rest then some []
      else (wordRun? inFlow rest).map (c :: ·)
    else if inFlow && isFlowMark c then some []
    else (wordRun? inFlow rest).map (c :: ·)

/-- A text without quotes: the text, the place behind it and behind the white space after it, and
whether that place is on another line. -/
structure Word where
  text : List Char
  next : Cursor
  broken : Bool

/-- Goes on with a text without quotes behind its first characters. Outside of brackets it ends
where the indentation is less than `indent`. -/
def wordOn? (inFlow : Bool) (indent : Nat) (c : Cursor) (text : List Char) : Option Word :=
  if !isBlankOrEnd c.rest || c.rest.isEmpty then some ⟨text, c, false⟩
  else
    match c.gap? indent .empty with
    | none => none
    | some (gap, next) =>
      if (!inFlow && next.column < indent) || next.isAtDocumentMark || next.head? = some '#' then
        some ⟨text, next, gap.broken⟩
      else
        match wordRun? inFlow next.rest with
        | none => none
        | some run =>
          if (next.skip run.length).rest.length < c.rest.length ∧ !run.isEmpty then
            wordOn? inFlow indent (next.skip run.length) (text ++ gap.text ++ run)
          else some ⟨text, next, gap.broken⟩
termination_by c.rest.length

/-- A text without quotes. -/
def word? (inFlow : Bool) (indent : Nat) (c : Cursor) : Option Word :=
  (wordRun? inFlow c.rest).bind fun run => wordOn? inFlow indent (c.skip run.length) run

/-! ## In quotes -/

/-- The character that a character stands for behind a backslash. -/
def escaped? (c : Char) : Option Char :=
  match c with
  | '0' => some '\x00'
  | 'a' => some '\x07'
  | 'b' => some '\x08'
  | 't' | '\t' => some '\t'
  | 'n' => some '\n'
  | 'v' => some '\x0b'
  | 'f' => some '\x0c'
  | 'r' => some '\r'
  | 'e' => some '\x1b'
  | ' ' | '"' | '/' | '\\' => some c
  | 'N' => some '\u0085'
  | '_' => some '\u00a0'
  | 'L' => some '\u2028'
  | 'P' => some '\u2029'
  | _ => none

/-- The number of hexadecimal digits behind a backslash and a letter. -/
def escapeWidth? (c : Char) : Option Nat :=
  match c with
  | 'x' => some 2
  | 'u' => some 4
  | 'U' => some 8
  | _ => none

/-- The character of an escape behind its backslash, and how many characters write it there. -/
def escape? (cs : List Char) : Option (Char × Nat) :=
  match cs with
  | [] => none
  | c :: rest =>
    match escaped? c, escapeWidth? c with
    | some plain, _ => some (plain, 1)
    | none, some width =>
      if rest.length < width then none
      else ((Hexadecimal.read? (rest.take width)).filter Nat.isValidChar).map fun n =>
        (Char.ofNat n, width + 1)
    | none, none => none

/-- A text in quotes behind its opening quote: its characters, and the place behind its closing
quote. In single quotes a quote is written twice, in double quotes there are escapes. -/
def quoted? (quote : Char) (c : Cursor) (reversed : List Char) : Option (List Char × Cursor) :=
  let onward (next : Cursor) (added : List Char) : Option (List Char × Cursor) :=
    if next.rest.length < c.rest.length then quoted? quote next (added.reverse ++ reversed) else none
  if c.isAtDocumentMark then none
  else match c.rest with
    | [] => none
    | d :: rest =>
      if d = quote then
        if quote = '\'' ∧ rest.head? = some quote then onward (c.skip 2) [quote]
        else some (reversed.reverse, c.skip 1)
      else if d = '\\' ∧ quote = '"' then
        if rest.head?.any isBreak then
          match (c.skip 1).pastBreak.gap? 0 .escaped with
          | some (gap, next) => onward next gap.text
          | none => none
        else match escape? rest with
          | some (plain, width) => onward (c.skip (width + 1)) [plain]
          | none => none
      else if isBlank d || isBreak d then
        match c.gap? 0 .empty with
        | some (gap, next) => onward next gap.text
        | none => none
      else onward (c.skip 1) [d]
termination_by c.rest.length

/-! ## Blocks of lines -/

/-- What becomes of the line breaks at the end of a block. -/
inductive Chomp where
  | strip
  | clip
  | keep
  deriving DecidableEq

/-- The sign for what becomes of the line breaks at the end. -/
def chomp? (c : Char) : Option Chomp :=
  if c = '+' then some .keep else if c = '-' then some .strip else none

/-- What is said behind the mark of a block: what becomes of the line breaks at its end, its
indentation, and how many characters say so. An indentation of nothing is an error. -/
def blockHeader? (cs : List Char) : Option (Chomp × Option Nat × Nat) :=
  let depth? (c : Char) : Option Nat := if Numeral.isDigit c then some (Numeral.valueOf c) else none
  let checked (chomp : Chomp) (depth : Nat) (width : Nat) : Option (Chomp × Option Nat × Nat) :=
    if depth = 0 then none else some (chomp, some depth, width)
  match cs.head?.bind chomp?, cs.head?.bind depth? with
  | some chomp, _ =>
    match cs.tail.head?.bind depth? with
    | some depth => checked chomp depth 2
    | none => some (chomp, none, 1)
  | none, some depth =>
    match cs.tail.head?.bind chomp? with
    | some chomp => checked chomp depth 2
    | none => checked .clip depth 1
  | none, none => some (.clip, none, 0)

/-- Takes up the empty lines and the indentation before a line of a block: the line breaks, the
largest indentation met, and the place behind. Where the indentation is not known yet all spaces
belong to it; a tab must not. -/
def indentation? (indent : Option Nat) (c : Cursor) (most : Nat) (breaks : List Char) :
    Option (List Char × Nat × Cursor) :=
  let spaces := (c.rest.takeWhile (· = ' ')).length
  let inside := c.skip (match indent with
    | none => spaces
    | some n => min spaces (n - c.column))
  let most := max most inside.column
  if inside.head? = some '\t' ∧ indent.all (inside.column < ·) then none
  else match inside.nextLine? with
    | none => some (breaks, most, inside)
    | some (kept, next) =>
      if next.rest.length < c.rest.length then indentation? indent next most (breaks ++ [kept])
      else none
termination_by c.rest.length

/-- What has been read of a block: its text, the break that ended the last line, the breaks of the
empty lines behind it, and whether the last line began with a blank. -/
structure Block where
  text : List Char
  last : Option Char
  breaks : List Char
  wasIndented : Bool

namespace Block

/-- One more line. In a folded block the break between two lines that do not begin with a blank
becomes a space, or nothing where empty lines follow it. -/
def line (folded : Bool) (b : Block) (line : List Char) : Block :=
  let isIndented := line.head?.any isBlank
  let join :=
    if folded && b.last == some '\n' && !b.wasIndented && !isIndented then
      (if b.breaks.isEmpty then [' '] else [])
    else b.last.toList
  ⟨b.text ++ join ++ b.breaks ++ line, none, [], isIndented⟩

/-- The text of a block that has been read to its end. -/
def chomp (b : Block) : Chomp → List Char
  | .strip => b.text
  | .clip => b.text ++ b.last.toList
  | .keep => b.text ++ b.last.toList ++ b.breaks

end Block

/-- Reads the lines of a block. -/
def blockLines? (folded : Bool) (indent : Nat) (c : Cursor) (b : Block) : Option (Block × Cursor) :=
  if c.column ≠ indent ∨ c.rest.isEmpty then some (b, c)
  else
    let line := c.rest.takeWhile fun d => !isBreak d
    let b := b.line folded line
    let behind := c.skip line.length
    match indentation? (some indent) behind.pastBreak 0 [] with
    | none => none
    | some (breaks, _, next) =>
      if next.rest.length < c.rest.length then
        blockLines? folded indent next { b with last := behind.nextLine?.map Prod.fst, breaks }
      else none
termination_by c.rest.length

/-- A block of lines behind its mark: its text and the place behind it. Its indentation is given
beyond the one around it, or else is that of the first line that is not empty; `around` is one more
than the indentation around the block, or zero where there is none. -/
def block? (folded : Bool) (around : Nat) (c : Cursor) : Option (List Char × Cursor) := do
  let (chomp, depth, width) ← blockHeader? c.rest
  let behind := ((c.skip width).skipWhile isBlank).pastComment
  if behind.rest.isEmpty || behind.nextLine?.isSome then
    let given := depth.map fun depth => around - 1 + depth
    let (breaks, most, first) ← indentation? given behind.pastBreak 0 []
    let indent := given.getD (max most (max around 1))
    let (b, next) ← blockLines? folded indent first ⟨[], none, breaks, false⟩
    some (b.chomp chomp, next)
  else none

end Outreach.Yaml
