import Outreach.Store.Table
import Outreach.Text.Percent

/-!
# Tables in files

A table is kept in a file as a list of its rows; an empty file holds an empty table. The address of
a table is a path, which may stand behind `sqlite:` and have parameters after a question mark, or
says that the table is kept in memory only.
-/

namespace Outreach

namespace SnapshotRow

/-- How a row is read. -/
def layout : Layout SnapshotRow where
  name := "SnapshotRow"
  fields := [
    .required "key" .text fun v r => { r with key := v },
    .required "execution_id" .text fun v r => { r with executionId := v },
    .required "funnel_id" .text fun v r => { r with funnelId := v },
    .required "status" .text fun v r => { r with status := v },
    .required "snapshot" .text fun v r => { r with snapshot := v },
    .required "updated_at" .text fun v r => { r with updatedAt := v },
    .required "expires_at" .nat64 fun v r => { r with expiresAt := v }]
  blank := ⟨"", "", "", "", "", "", 0⟩

/-- A row as a value. -/
def toJson (r : SnapshotRow) : Json :=
  .record [("key", .string r.key), ("execution_id", .string r.executionId),
    ("funnel_id", .string r.funnelId), ("status", .string r.status),
    ("snapshot", .string r.snapshot), ("updated_at", .string r.updatedAt),
    ("expires_at", .nat r.expiresAt)]

end SnapshotRow

/-- Why a table cannot be used. -/
inductive TableFault where
  /-- The parameters of its address make no sense. -/
  | misconfigured (reason : String)
  | unreachable
  | notATable
  | readOnly
  deriving DecidableEq, Repr

namespace TableFault

/-- The text of a fault. -/
def message : TableFault → String
  | misconfigured reason => "error with configuration: " ++ reason
  | unreachable => "error returned from database: (code: 14) unable to open database file"
  | notATable => "error returned from database: (code: 26) file is not a database"
  | readOnly =>
    "storage error: error returned from database: (code: 8) attempt to write a readonly database"

end TableFault

namespace TableStore

/-- The text of a file that holds a table. -/
def render (store : TableStore) : String :=
  (Json.array (store.map SnapshotRow.toJson)).compact

/-- The table that the text of a file holds. -/
def ofText (text : String) : Except TableFault TableStore :=
  if text.isEmpty then .ok []
  else ((Reader.listOf SnapshotRow.layout.read).ofJsonText text).mapError fun _ => .notATable

end TableStore

/-- Where a table is kept. -/
inductive TablePlace where
  | memory
  | file (path : String) (isReadOnly : Bool)
  deriving DecidableEq, Repr

namespace TablePlace

/-- What an address in full begins with. -/
def scheme : String := "sqlite:"

/-- A text without a beginning, however often it has it. -/
def stripAll (start cs : List Char) : List Char :=
  match Text.behind? start cs with
  | none => cs
  | some rest => if rest.length < cs.length then stripAll start rest else rest
termination_by cs.length

/-- A name or value of a parameter in plain. -/
def plain (cs : List Char) : String :=
  let cs := cs.map fun c => if c = '+' then ' ' else c
  (Percent.decode? cs).getD (String.ofList cs)

/-- The parameters of an address, in order. -/
def parameters (cs : List Char) : List (String × String) :=
  ((Text.split '&' cs).filter fun piece => !piece.isEmpty).map fun piece =>
    match Text.splitOnce '=' piece with
    | some (name, value) => (plain name, plain value)
    | none => (plain piece, "")

/-- A value that a parameter cannot have. -/
def unknownValue (name value : String) : TableFault :=
  .misconfigured ("unknown value " ++ Text.quoted value ++ " for " ++ Misfit.ticked name)

/-- What a parameter makes of a place. Whether there is a file already makes no difference, for one
is made where there is none. -/
def withParameter (place : TablePlace) (parameter : String × String) : Except TableFault TablePlace :=
  let (name, value) := parameter
  let checked (known : List String) : Except TableFault TablePlace :=
    if known.contains value then .ok place else .error (unknownValue name value)
  match name, value, place with
  | "mode", "memory", _ => .ok .memory
  | "mode", "ro", .file path _ => .ok (.file path true)
  | "mode", _, _ => checked ["ro", "rw", "rwc"]
  | "cache", _, _ => checked ["private", "shared"]
  | "immutable", _, _ => checked ["true", "1", "false", "0"]
  | "vfs", _, _ => .ok place
  | _, _, _ =>
    .error (.misconfigured
      ("unknown query parameter " ++ Misfit.ticked name ++ " while parsing connection URL"))

/-- The place of a full address. -/
def ofFullAddress (address : List Char) : Except TableFault TablePlace := do
  let body := stripAll scheme.toList (stripAll (scheme ++ "//").toList address)
  let (path, rest) := (Text.splitOnce '?' body).getD (body, [])
  let place ← if path = ":memory:".toList then .ok memory
    else match Percent.decode? path with
      | some path => .ok (file path false)
      | none => .error (.misconfigured "invalid utf-8 sequence")
  (parameters rest).foldlM withParameter place

/-- The full form of an address: a bare path stands for a file that may be written and made. -/
def fullAddress (address : String) : String :=
  if (Text.behind? scheme.toList address.toList).isSome then address
  else scheme ++ "//" ++ address ++ "?mode=rwc"

/-- The place of an address. -/
def ofAddress (address : String) : Except TableFault TablePlace :=
  ofFullAddress (fullAddress address).toList

end TablePlace

end Outreach
