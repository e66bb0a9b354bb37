import Outreach.Source.Record
import Outreach.Source.Word
import Outreach.Yaml.Node

/-!
# YAML texts as sources

A YAML text is one document. A text without quotes is a word; a tag says what a value is meant to be
and cannot be read where any value may stand unless it is one of a few that are known. Collections
inside more than 127 others are unreadable, and so are records with keys that are no texts.
-/

namespace Outreach.Yaml

/-- How deep collections may be nested. -/
def depthLimit : Nat := 128

/-- What the known tags begin with. -/
def knownTags : String := "tag:yaml.org,2002:"

/-- Whether a tag belongs to the text that it stands in. -/
def isLocal (tag : String) : Bool :=
  tag.toList.head? = some '!'

/-- A number, if it is one of these. -/
def numberOr (d : Option Source) : Source :=
  d.getD .unreadable

/-- What a text with a tag stands for where any value may stand. -/
def taggedMeaning (tag text : String) : Source :=
  if isLocal tag then .unreadable
  else if tag = knownTags ++ "bool" then numberOr ((Word.bool? text).map .bool)
  else if tag = knownTags ++ "int" then
    match Word.whole? text with
    | some i => if -(Nat.pow 2 63) ≤ i ∧ i < Nat.pow 2 64 then .number (.int i) else .unreadable
    | none => .unreadable
  else if tag = knownTags ++ "float" then
    numberOr ((Word.double? text).map fun d => .number (.double d))
  else if tag = knownTags ++ "null" then
    if Word.nullWords.contains text then .null else .unreadable
  else .string text

/-- A text as a source. -/
def scalarSource (text : String) (isWord : Bool) (tag : Option String) : Source :=
  match tag with
  | some tag => .word text (taggedMeaning tag text)
  | none => if isWord then Word.source text else .string text

/-- A list or record under its tag; one of the known tags says nothing about it. -/
def labelledBy (tag : Option String) (content : Source) : Source :=
  if tag.any isLocal then .labelled content else content

namespace Node

/-- The text of a key. -/
def keyText? : Node → Option String
  | .scalar text _ _ => some text
  | _ => none

mutual

/-- A value as a source, with the number of collections that may still be opened. -/
def source (depth : Nat) : Node → Source
  | .scalar text isWord tag => scalarSource text isWord tag
  | .list items tag =>
    if depth = 0 then .unreadable
    else labelledBy tag (.list (sources (depth - 1) items) .closed)
  | .record entries tag =>
    if depth = 0 || entries.any (fun entry => entry.1.keyText?.isNone) then .unreadable
    else labelledBy tag (.record (members (depth - 1) entries) .closed)
  | .endless => .unreadable

def sources (depth : Nat) : List Node → List Source
  | [] => []
  | item :: rest => source depth item :: sources depth rest

def members (depth : Nat) : List (Node × Node) → List (String × Source)
  | [] => []
  | (key, value) :: rest => (key.keyText?.getD "", source depth value) :: members depth rest

end

end Node

/-- A text as a source. -/
def read (text : String) : Source :=
  match (tokens? text.toList).bind document? with
  | some node => node.source depthLimit
  | none => .broken

end Outreach.Yaml

namespace Outreach.Reader

/-- Reads from a YAML text. -/
def ofYamlText {α : Type} (read : Reader α) (text : String) : Reads α :=
  read .yaml (Yaml.read text)

end Outreach.Reader
