import Outreach.Source.Fault
import Outreach.Source.Word

/-!
# Readers

A reader takes a source as a value of one type or says what is wrong with it. The same readers
serve stored values, JSON texts, YAML texts and configuration files; what differs between these is
recorded in a `Medium`.

Everything is read in the order in which it stands, so of two faults the first one is reported.
-/

namespace Outreach

/-- What is done about the items of a list beyond the fields of a record. -/
inductive Surplus where
  | reported
  | malformed
  | ignored
  deriving DecidableEq

/-- The habits of the place that a source comes from. -/
structure Medium where
  /-- Whether a list is read as a record, its items in the order of the fields. -/
  recordFromList : Bool
  /-- What is done about a list that is longer than the record. -/
  surplus : Surplus
  /-- Whether a wrong form of a variant is described, and not just refused. -/
  variantsDescribed : Bool
  /-- Whether an empty word reads as an empty list or record. -/
  emptyWordIsEmpty : Bool

namespace Medium

/-- A value held in memory. -/
def value : Medium := ⟨true, .reported, true, false⟩

/-- A JSON text. -/
def json : Medium := ⟨true, .malformed, false, false⟩

/-- A YAML text. -/
def yaml : Medium := ⟨false, .malformed, false, true⟩

/-- A configuration file. -/
def settings : Medium := ⟨true, .ignored, false, false⟩

end Medium

/-- Reads a source as a value of a type. -/
abbrev Reader (α : Type) := Medium → Source → Reads α

namespace Reader

variable {α β : Type}

/-- Refuses a source of the wrong kind. A broken place is refused for being broken. -/
def refuse (expected : String) : Source → Reads α
  | .unreadable | .broken => .error .malformed
  | source => Fault.raise (.wrongKind source.describe expected)

/-- The image of what is read. -/
def map (f : α → β) (read : Reader α) : Reader β := fun medium source =>
  (read medium source).map f

/-- A text; a word without quotes is one, whatever it stands for. -/
def text : Reader String := fun _ source =>
  match source with
  | .string s => .ok s
  | .word s _ => .ok s
  | source => refuse "a string" source

/-- A truth value. -/
def bool : Reader Bool := fun _ source =>
  match source with
  | .bool b => .ok b
  | .word _ (.bool b) => .ok b
  | source => refuse "a boolean" source

/-- Whether a source stands for a whole number, and which. -/
def wholeNumber? : Source → Option Int
  | .number (.int i) => some i
  | .word word _ => Word.natural? word
  | _ => none

/-- A natural number below `2 ^ bits`; `kind` is what the format calls such a number. -/
def natural (kind : String) (bits : Nat) : Reader Nat := fun _ source =>
  match wholeNumber? source with
  | some i =>
    if 0 ≤ i ∧ i < Nat.pow 2 bits then .ok i.toNat
    else Fault.raise (.wrongValue source.describe kind)
  | none => refuse kind source

/-- A number of 8 bits. -/
def nat8 : Reader Nat := natural "u8" 8

/-- A number of 32 bits. -/
def nat32 : Reader Nat := natural "u32" 32

/-- A number of 64 bits. -/
def nat64 : Reader Nat := natural "u64" 64

/-- A count. -/
def count : Reader Nat := natural "usize" 64

/-- A double; a whole number is read as the nearest one. -/
def double : Reader Double := fun _ source =>
  match source with
  | .number n => .ok n.toDouble
  | .word word _ =>
    match Word.double? word with
    | some d => .ok d
    | none => refuse "f64" source
  | source => refuse "f64" source

/-- An optional value: null reads as absent. -/
def optional (read : Reader α) : Reader (Option α) := fun medium source =>
  match source with
  | .null => .ok none
  | .word _ .null => .ok none
  | source => (read medium source).map some

/-- One of a set of words. A word may also stand as the only name in a record, beside null. -/
def variant (known : List (String × α)) : Reader α := fun medium source =>
  let pick (name : String) : Reads α :=
    match known.find? fun entry => entry.1 == name with
    | some entry => .ok entry.2
    | none => Fault.raise (.unknownVariant name (known.map Prod.fst))
  match source with
  | .string name => pick name
  | .word name _ => pick name
  | .record [(name, inner)] ending => do
    let picked ← pick name
    match inner with
    | .null => if ending = .closed then .ok picked else .error .malformed
    | inner => refuse "unit" inner
  | .record _ ending =>
    if medium.variantsDescribed ∧ ending = .closed then
      Fault.raise (.wrongValue source.describe "map with a single key")
    else .error .malformed
  | source =>
    if medium.variantsDescribed then refuse "string or map" source else .error .malformed

/-- Whether a container may be read to its end. -/
def finish (ending : Ending) (result : α) : Reads α :=
  if ending = .closed then .ok result else .error .malformed

/-- A list of values. -/
def listOf (read : Reader α) : Reader (List α) := fun medium source =>
  match source.unlabelled with
  | .list items ending => do
    let values ← items.mapM (read medium)
    finish ending values
  | .word "" .null =>
    if medium.emptyWordIsEmpty then .ok [] else refuse "a sequence" source
  | source => refuse "a sequence" source

/-- Named values; the last value of a name stands. -/
def membersOf (read : Reader α) : Reader (Members α) := fun medium source =>
  match source.unlabelled with
  | .record entries ending => do
    let values ← entries.mapM fun entry => (read medium entry.2).map fun v => (entry.1, v)
    finish ending (Members.ofEntries values)
  | .word "" .null =>
    if medium.emptyWordIsEmpty then .ok [] else refuse "a map" source
  | source => refuse "a map" source

mutual

/-- Any value at all. -/
def anyValue : Source → Reads Json
  | .null => .ok .null
  | .bool b => .ok (.bool b)
  | .number (.int i) => .ok (.int i)
  | .number (.double d) => .ok (.double d)
  | .string s => .ok (.string s)
  | .word _ meaning => anyValue meaning
  | .list items ending => do
    let values ← anyItems items
    finish ending (.array values)
  | .record entries ending => do
    let values ← anyEntries entries
    finish ending (.object (Members.ofEntries values))
  | .labelled _ | .unreadable | .broken => .error .malformed

def anyItems : List Source → Reads (List Json)
  | [] => .ok []
  | item :: rest => do
    let value ← anyValue item
    let values ← anyItems rest
    .ok (value :: values)

def anyEntries : List (String × Source) → Reads (List (String × Json))
  | [] => .ok []
  | (name, item) :: rest => do
    let value ← anyValue item
    let values ← anyEntries rest
    .ok ((name, value) :: values)

end

/-- Any value at all, from any medium. -/
def any : Reader Json := fun _ source =>
  anyValue source

end Reader

end Outreach
