import Outreach.Source.Basic

/-!
# Tables

The values of a TOML text lie in tables inside tables. A table is defined by a heading, comes about
on the way to another heading, or comes about on the way to a value; what is defined once cannot be
defined again, and a table of the last kind only grows by values.
-/

namespace Outreach.Toml

/-- How a table came about. -/
inductive Origin where
  | heading
  /-- On the way to a heading. -/
  | beforeHeading
  /-- On the way to a value. -/
  | beforeValue
  deriving DecidableEq

/-- What a name stands for in a table. -/
inductive Item where
  | value (source : Source)
  | table (origin : Origin) (entries : List (String × Item))
  /-- Tables under one heading, the last one first. -/
  | tables (last : List (String × Item)) (others : List (List (String × Item)))

/-- The entries of a table. -/
abbrev Table := List (String × Item)

namespace Table

/-- What a name stands for. -/
def find? (t : Table) (name : String) : Option Item :=
  t.lookup name

/-- Gives a name another meaning. -/
def put (name : String) (item : Item) : Table → Table
  | [] => [(name, item)]
  | (key, old) :: rest =>
    if key = name then (name, item) :: rest else (key, old) :: put name item rest

/-- Puts a value at the end of a path of names. Tables on the way come about, or have come about on
the way before; the one that takes the value must have come about on the way to a value. -/
def assign? (value : Source) : (path : List String) → (name : String) → Table → Option Table
  | [], name, t => if (t.find? name).isSome then none else some (t.put name (.value value))
  | step :: path, name, t =>
    match t.find? step with
    | none => (assign? value path name []).map fun inner => t.put step (.table .beforeValue inner)
    | some (.table origin inner) =>
      if origin = .heading ∨ (path.isEmpty ∧ origin ≠ .beforeValue) then none
      else (assign? value path name inner).map fun inner => t.put step (.table origin inner)
    | some (.tables last others) =>
      if path.isEmpty then none
      else (assign? value path name last).map fun last => t.put step (.tables last others)
    | some (.value _) => none

/-- Changes the table at the end of a path of headings. Tables on the way come about. -/
def alter? (f : Table → Option Table) : (path : List String) → Table → Option Table
  | [], t => f t
  | step :: path, t =>
    match t.find? step with
    | none => (alter? f path []).map fun inner => t.put step (.table .beforeHeading inner)
    | some (.table origin inner) =>
      (alter? f path inner).map fun inner => t.put step (.table origin inner)
    | some (.tables last others) =>
      (alter? f path last).map fun last => t.put step (.tables last others)
    | some (.value _) => none

/-- Defines a table by its heading. -/
def define? (name : String) (t : Table) : Option Table :=
  match t.find? name with
  | none => some (t.put name (.table .heading []))
  | some (.table .beforeHeading inner) => some (t.put name (.table .heading inner))
  | _ => none

/-- Defines one more table under a heading. -/
def extend? (name : String) (t : Table) : Option Table :=
  match t.find? name with
  | none => some (t.put name (.tables [] []))
  | some (.tables last others) => some (t.put name (.tables [] (last :: others)))
  | _ => none

end Table

namespace Item

mutual

/-- What a name stands for, as a source. -/
def source : Item → Source
  | .value source => source
  | .table _ entries => .record (sources entries) .closed
  | .tables last others =>
    .list (tableSources others [.record (sources last) .closed]) .closed

def sources : List (String × Item) → List (String × Source)
  | [] => []
  | (name, item) :: rest => (name, source item) :: sources rest

/-- Tables as sources, the last one first, in front of others. -/
def tableSources : List (List (String × Item)) → List Source → List Source
  | [], behind => behind
  | entries :: rest, behind => tableSources rest (.record (sources entries) .closed :: behind)

end

end Item

end Outreach.Toml
