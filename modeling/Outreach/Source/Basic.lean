import Outreach.Json.Basic
import Outreach.Json.Printer
import Outreach.Text.Quoted

/-!
# Values as a reader meets them

A `Source` is a written or stored value before anyone has said what it should be. Entries stand in
the order in which they were written, a name may occur twice, and a text that stops making sense
ends in `broken` at the place where it does: whoever reads the source in order meets a fault in the
data before it first and the broken place after it.
-/

namespace Outreach

/-- How the text of a container ends. -/
inductive Ending where
  /-- With its closing bracket. -/
  | closed
  /-- With its closing bracket, but something in it can be skipped and not read. -/
  | unreadable
  /-- Nowhere: the text breaks off or stops making sense. -/
  | broken
  deriving DecidableEq

/-- A value that has not been read yet. -/
inductive Source where
  | null
  | bool (value : Bool)
  | number (value : Number)
  | string (value : String)
  /-- A word without quotes: a text where a text is wanted, and otherwise what it stands for. -/
  | word (text : String) (meaning : Source)
  | list (items : List Source) (ending : Ending)
  | record (entries : List (String × Source)) (ending : Ending)
  /-- A list or record under a label: read where a list or record is wanted, and refused where any
  value may stand. -/
  | labelled (content : Source)
  /-- Complete, so that it can be skipped, but not to be read. -/
  | unreadable
  /-- The place where a text stops making sense. -/
  | broken

namespace Source

instance : Inhabited Source := ⟨.null⟩

/-- Whether the text of a source is complete, so that a reader can skip it. -/
def isComplete : Source → Bool
  | .broken => false
  | .list _ ending => ending != .broken
  | .record _ ending => ending != .broken
  | .labelled content => content.isComplete
  | _ => true

/-- A source without its label. -/
def unlabelled : Source → Source
  | .labelled content => content
  | source => source

/-- What a reader reports to have found. -/
def describe : Source → String
  | .null => "null"
  | .bool true => "boolean `true`"
  | .bool false => "boolean `false`"
  | .number (.int i) => "integer `" ++ Numeral.intText i ++ "`"
  | .number (.double d) => "floating point `" ++ Json.numberStyle.render d ++ "`"
  | .string s => "string " ++ Text.quoted s
  | .word _ meaning => describe meaning
  | .list _ _ => "sequence"
  | .record _ _ => "map"
  | .labelled content => describe content
  | .unreadable | .broken => "nothing"

mutual

/-- A stored value as a source: everything in it is complete. -/
def ofJson : Json → Source
  | .null => .null
  | .bool b => .bool b
  | .number n => .number n
  | .string s => .string s
  | .array items => .list (ofItems items) .closed
  | .object members => .record (ofMembers members) .closed

def ofItems : List Json → List Source
  | [] => []
  | item :: rest => ofJson item :: ofItems rest

def ofMembers : List (String × Json) → List (String × Source)
  | [] => []
  | (name, value) :: rest => (name, ofJson value) :: ofMembers rest

end

end Source

end Outreach
