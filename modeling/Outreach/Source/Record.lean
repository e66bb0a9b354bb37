import Outreach.Source.Reader

/-!
# Reading records

A record type says which fields it has, in order, and for each one how its value is read and put
into the record. Reading starts from a record that holds the defaults and goes through the entries
as they stand; a name that is no field is skipped. When all entries are read, the first required
field that was not among them is reported.
-/

namespace Outreach

/-- What becomes of a field that is not given. -/
inductive Absence where
  /-- The default stands. -/
  | allowed
  /-- The default stands where the fields are named, but an item of a list must be there. -/
  | allowedByName
  /-- The record cannot be read. -/
  | refused
  deriving DecidableEq

/-- A field of a record type. -/
structure Field (α : Type) where
  name : String
  put : Medium → Source → α → Reads α
  absence : Absence

namespace Field

variable {α β : Type}

/-- A field that must be given. -/
def required (name : String) (read : Reader β) (set : β → α → α) : Field α where
  name
  put := fun medium source record => (read medium source).map fun value => set value record
  absence := .refused

/-- A field that may be left out. -/
def defaulted (name : String) (read : Reader β) (set : β → α → α) : Field α where
  name
  put := fun medium source record => (read medium source).map fun value => set value record
  absence := .allowed

end Field

/-- A record type: its name, its fields, and the record that holds the defaults. -/
structure Layout (α : Type) where
  name : String
  fields : List (Field α)
  blank : α

namespace Layout

variable {α : Type}

/-- The first required field that was not seen. -/
def firstMissing (layout : Layout α) (seen : List String) : Option String :=
  (layout.fields.find? fun f => f.absence == .refused && !seen.contains f.name).map Field.name

/-- Puts one entry after the other into the record. -/
def readEntries (layout : Layout α) (medium : Medium) :
    List (String × Source) → List String → α → Reads (List String × α)
  | [], seen, record => .ok (seen, record)
  | (name, source) :: rest, seen, record =>
    match layout.fields.find? fun f => f.name == name with
    | none =>
      if source.isComplete then readEntries layout medium rest seen record
      else .error .malformed
    | some f =>
      if seen.contains name then Fault.raise (.duplicateField name)
      else do
        let record ← f.put medium source record
        readEntries layout medium rest (name :: seen) record

/-- Puts the items of a list into the fields, in order. -/
def readItems (layout : Layout α) (medium : Medium) (position : Nat) (ending : Ending) :
    List (Field α) → List Source → α → Reads (List Source × α)
  | [], items, record => .ok (items, record)
  | f :: fields, [], record =>
    if ending ≠ .closed then .error .malformed
    else if f.absence = .allowed then readItems layout medium (position + 1) ending fields [] record
    else
      Fault.raise (.wrongLength position
        ("struct " ++ layout.name ++ " with " ++ Numeral.text layout.fields.length ++ " elements"))
  | f :: fields, item :: items, record => do
    let record ← f.put medium item record
    readItems layout medium (position + 1) ending fields items record

/-- What is done when items are left over. -/
def settleSurplus (medium : Medium) (length : Nat) (ending : Ending) (left : List Source) (record : α) :
    Reads α :=
  if left.isEmpty then Reader.finish ending record
  else match medium.surplus with
    | .ignored => .ok record
    | .malformed => .error .malformed
    | .reported => Fault.raise (.wrongLength length "fewer elements in array")

/-- Reads a record from its entries, or from a list where the medium has it. -/
def read (layout : Layout α) : Reader α := fun medium source =>
  let fromEntries (entries : List (String × Source)) (ending : Ending) : Reads α := do
    let (seen, record) ← layout.readEntries medium entries [] layout.blank
    let record ← Reader.finish ending record
    match layout.firstMissing seen with
    | some name => Fault.raise (.missingField name)
    | none => .ok record
  match source.unlabelled with
  | .record entries ending => fromEntries entries ending
  | .list items ending =>
    if medium.recordFromList then do
      let (left, record) ← layout.readItems medium 0 ending layout.fields items layout.blank
      settleSurplus medium items.length ending left record
    else Reader.refuse ("struct " ++ layout.name) source
  | .word "" .null =>
    if medium.emptyWordIsEmpty then fromEntries [] .closed
    else Reader.refuse ("struct " ++ layout.name) source
  | source => Reader.refuse ("struct " ++ layout.name) source

end Layout

end Outreach
