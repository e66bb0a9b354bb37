import Outreach.Yaml.Property
import Outreach.Yaml.Scalar

/-!
# The tokens of a YAML text

A text is taken apart from its beginning to its end. Lines that are indented further than those
before them open a block, which is closed where the indentation goes back. What turns out to be a
key only by the colon behind it gets its mark afterwards, in front of it; a key of this kind stands
on one line and has at most 1024 characters.
-/

namespace Outreach.Yaml

/-- A token. -/
inductive Token where
  | directive (directive : Directive)
  | documentStart
  | documentEnd
  | listStart
  | recordStart
  | blockEnd
  | bracketOpen
  | bracketClose
  | braceOpen
  | braceClose
  | entry
  | comma
  | key
  | value
  | alias (name : String)
  | anchor (name : String)
  | tag (name : TagName)
  | scalar (text : String) (isWord : Bool)

/-- A place that turns out to be a key if a colon follows on its line. -/
structure Candidate where
  /-- Whether it has to be a key, by its indentation. -/
  isRequired : Bool
  /-- The number of tokens before it. -/
  position : Nat
  place : Cursor

/-- A text that is being taken apart. -/
structure Lexer where
  cursor : Cursor
  tokens : Array Token
  /-- The columns at which blocks were opened, the innermost first. -/
  indents : List Nat
  /-- Whether a key may begin here without a mark. -/
  keyAllowed : Bool
  /-- For each bracket that is open, and last for the block around them, where a key may have
  begun. -/
  candidates : List (Option Candidate)

namespace Lexer

/-- The beginning of a text. -/
def start (cs : List Char) : Lexer :=
  ⟨.start cs, #[], [], true, [none]⟩

/-- Whether a bracket is open. -/
def inFlow (s : Lexer) : Bool :=
  1 < s.candidates.length

/-- The column here. -/
def column (s : Lexer) : Nat :=
  s.cursor.column

/-- The least column beyond the innermost block. -/
def around (s : Lexer) : Nat :=
  match s.indents with
  | [] => 0
  | n :: _ => n + 1

/-- One more token, and the place behind it. -/
def push (s : Lexer) (token : Token) (next : Cursor) : Lexer :=
  { s with tokens := s.tokens.push token, cursor := next }

/-- Closes the blocks that a column lies before; without a column, all of them. -/
def unroll (s : Lexer) (column : Option Nat) : Lexer :=
  if s.inFlow then s
  else
    let closed := s.indents.takeWhile fun n => column.all (· < n)
    { s with
      tokens := s.tokens ++ (closed.map fun _ => Token.blockEnd).toArray,
      indents := s.indents.drop closed.length }

/-- Opens a block at a column, its token at a position, if the column lies beyond the others. -/
def roll (s : Lexer) (column position : Nat) (token : Token) : Lexer :=
  if s.inFlow || column < s.around then s
  else { s with
    tokens := s.tokens.insertIdxIfInBounds position token, indents := column :: s.indents }

/-- Forgets where a key may have begun; one that had to be a key is an error. -/
def dropCandidate? (s : Lexer) : Option Lexer :=
  match s.candidates with
  | some candidate :: rest =>
    if candidate.isRequired then none else some { s with candidates := none :: rest }
  | _ => some s

/-- Takes note that a key may begin here. -/
def noteCandidate? (s : Lexer) : Option Lexer :=
  if s.keyAllowed then
    s.dropCandidate?.map fun s =>
      let isRequired := !s.inFlow && s.indents.head? == some s.column
      { s with candidates := some ⟨isRequired, s.tokens.size, s.cursor⟩ :: s.candidates.tail }
  else some s

/-- Whether a place is too far from here for a key. -/
def isStale (s : Lexer) (candidate : Candidate) : Bool :=
  candidate.place.line < s.cursor.line || candidate.place.index + 1024 < s.cursor.index

/-- Forgets the places that are too far from here. -/
def dropStale? (s : Lexer) : Option Lexer :=
  if s.candidates.any fun c => c.any fun c => c.isRequired && s.isStale c then none
  else some { s with candidates := s.candidates.map fun c => c.filter fun c => !s.isStale c }

/-- Goes to the next token, past white space, comments and line breaks. Tabs are passed over where
no key may begin. -/
def skipBlanks (s : Lexer) : Lexer :=
  let c := if s.column = 0 ∧ s.cursor.head? = some '\ufeff' then s.cursor.skip 1 else s.cursor
  let c := c.skipWhile fun d => d = ' ' || (d = '\t' && (s.inFlow || !s.keyAllowed))
  let c := c.pastComment
  match c.nextLine? with
  | none => { s with cursor := c }
  | some (_, next) =>
    if next.rest.length < s.cursor.rest.length then
      skipBlanks { s with cursor := next, keyAllowed := s.keyAllowed || !s.inFlow }
    else { s with cursor := c }
termination_by s.cursor.rest.length

/-- A directive, or the mark of a document. -/
def documentToken? (s : Lexer) : Option Lexer := do
  let s ← (s.unroll none).dropCandidate?
  let s := { s with keyAllowed := false }
  if s.cursor.head? = some '%' then
    let (directive, next) ← directive? (s.cursor.skip 1)
    return s.push (.directive directive) next
  else
    let token := if s.cursor.head? = some '-' then Token.documentStart else Token.documentEnd
    return s.push token (s.cursor.skip 3)

/-- An opening bracket. -/
def open? (s : Lexer) (token : Token) : Option Lexer :=
  s.noteCandidate?.map fun s =>
    { s with candidates := none :: s.candidates, keyAllowed := true }.push token (s.cursor.skip 1)

/-- A closing bracket. -/
def close? (s : Lexer) (token : Token) : Option Lexer :=
  s.dropCandidate?.map fun s =>
    { s with
      candidates := if s.inFlow then s.candidates.tail else s.candidates,
      keyAllowed := false }.push token (s.cursor.skip 1)

/-- A comma. -/
def comma? (s : Lexer) : Option Lexer :=
  s.dropCandidate?.map fun s => { s with keyAllowed := true }.push .comma (s.cursor.skip 1)

/-- The mark of an item. -/
def entry? (s : Lexer) : Option Lexer :=
  if !s.inFlow && !s.keyAllowed then none
  else (s.roll s.column s.tokens.size .listStart).dropCandidate?.map fun s =>
    { s with keyAllowed := true }.push .entry (s.cursor.skip 1)

/-- The mark of a key. -/
def key? (s : Lexer) : Option Lexer :=
  if !s.inFlow && !s.keyAllowed then none
  else (s.roll s.column s.tokens.size .recordStart).dropCandidate?.map fun s =>
    { s with keyAllowed := !s.inFlow }.push .key (s.cursor.skip 1)

/-- The colon behind a key. -/
def value? (s : Lexer) : Option Lexer :=
  match s.candidates with
  | some candidate :: rest =>
    let s := { s with tokens := s.tokens.insertIdxIfInBounds candidate.position .key }
    let s := s.roll candidate.place.column candidate.position .recordStart
    some ({ s with candidates := none :: rest, keyAllowed := false }.push .value (s.cursor.skip 1))
  | _ =>
    if !s.inFlow && !s.keyAllowed then none
    else
      let s := s.roll s.column s.tokens.size .recordStart
      some ({ s with keyAllowed := !s.inFlow }.push .value (s.cursor.skip 1))

/-- A name or a tag, or a text in quotes. -/
def content? (s : Lexer) (read : Cursor → Option (Token × Cursor)) : Option Lexer := do
  let s ← s.noteCandidate?
  let (token, next) ← read s.cursor
  return { s with keyAllowed := false }.push token next

/-- A block of lines. -/
def blockText? (s : Lexer) (folded : Bool) : Option Lexer := do
  let s ← s.dropCandidate?
  let (text, next) ← block? folded s.around (s.cursor.skip 1)
  return { s with keyAllowed := true }.push (.scalar (String.ofList text) false) next

/-- A text without quotes. -/
def wordText? (s : Lexer) : Option Lexer := do
  let s ← s.noteCandidate?
  let word ← word? s.inFlow s.around s.cursor
  return { s with keyAllowed := word.broken }.push (.scalar (String.ofList word.text) true) word.next

/-- Whether a text without quotes begins here. -/
def isAtWord (s : Lexer) (c : Char) (behind : List Char) : Bool :=
  if c = '-' then !(behind.head?.any isBlank)
  else if c = '?' ∨ c = ':' then !s.inFlow && !isBlankOrEnd behind
  else !(isBlank c || isBreak c || isFlowMark c ||
    ['#', '&', '*', '!', '|', '>', '\'', '"', '%', '@', Char.ofNat 96].contains c)

/-- The token that begins with a character. -/
def tokenAt? (s : Lexer) (c : Char) (behind : List Char) : Option Lexer :=
  let isAlone := isBlankOrEnd behind
  if (s.column = 0 && c = '%') || s.cursor.isAtDocumentMark then s.documentToken?
  else if c = '[' then s.open? .bracketOpen
  else if c = '\x7b' then s.open? .braceOpen
  else if c = ']' then s.close? .bracketClose
  else if c = '\x7d' then s.close? .braceClose
  else if c = ',' then s.comma?
  else if c = '-' && isAlone then s.entry?
  else if c = '?' && (s.inFlow || isAlone) then s.key?
  else if c = ':' && (s.inFlow || isAlone) then s.value?
  else if c = '*' then s.content? fun c => (name? (c.skip 1)).map fun (n, c) => (.alias n, c)
  else if c = '&' then s.content? fun c => (name? (c.skip 1)).map fun (n, c) => (.anchor n, c)
  else if c = '!' then s.content? fun c => (tag? s.inFlow c).map fun (t, c) => (.tag t, c)
  else if (c = '|' || c = '>') && !s.inFlow then s.blockText? (c = '>')
  else if c = '\'' || c = '"' then
    s.content? fun cursor => (quoted? c (cursor.skip 1) []).map fun (text, next) =>
      (.scalar (String.ofList text) false, next)
  else if s.isAtWord c behind then s.wordText?
  else none

/-- The next token; at the end of the text the same place. -/
def next? (s : Lexer) : Option Lexer := do
  let s ← s.skipBlanks.dropStale?
  match s.cursor.rest with
  | [] => (s.unroll none).dropCandidate?
  | c :: behind => (s.unroll (some s.column)).tokenAt? c behind

/-- Takes the rest of a text apart. -/
def run? (s : Lexer) : Option (List Token) :=
  match s.next? with
  | none => none
  | some next =>
    if next.cursor.rest.length < s.cursor.rest.length then run? next
    else if next.cursor.rest.isEmpty then some next.tokens.toList
    else none
termination_by s.cursor.rest.length

end Lexer

/-- The tokens of a text, if it has a form at all. -/
def tokens? (cs : List Char) : Option (List Token) :=
  if cs.all isPermitted then (Lexer.start cs).run? else none

end Outreach.Yaml
