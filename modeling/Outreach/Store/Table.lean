import Outreach.Store.Basic

/-!
# A store in a table

The snapshots lie in a table with a row for every key, in the order in which the keys came. Beside
the snapshot a row holds the funnel, the status, and when the row was written and when it expires.
A row whose key is set again keeps its place, its execution and its funnel.
-/

namespace Outreach

/-- A row of the table. -/
structure SnapshotRow where
  key : String
  executionId : String
  funnelId : String
  status : String
  snapshot : Snapshot
  updatedAt : String
  expiresAt : Nat
  deriving DecidableEq, Repr

/-- The table. -/
abbrev TableStore := List SnapshotRow

namespace TableStore

/-- The largest number that a column holds. -/
def columnLimit : Nat := Nat.pow 2 63 - 1

/-- The time at which something expires that is kept for a number of seconds. -/
def expiry (now seconds : Nat) : Nat :=
  min (now + min (min (seconds * 1000) (Nat.pow 2 64 - 1)) columnLimit) columnLimit

/-- The row of an execution. -/
def row (now : Nat) (written : Instant) (key : String) (e : Execution) (seconds : Nat) :
    SnapshotRow where
  key
  executionId := e.id.render
  funnelId := e.funnelId
  status := e.status.label
  snapshot := .ofExecution e
  updatedAt := written.renderNumeric
  expiresAt := expiry now seconds

/-- A row with a new snapshot. -/
def renew (old new : SnapshotRow) : SnapshotRow :=
  { old with
    status := new.status, snapshot := new.snapshot, updatedAt := new.updatedAt,
    expiresAt := new.expiresAt }

/-- Puts a row into the table, or renews the one with its key. -/
def upsert (new : SnapshotRow) : TableStore → TableStore
  | [] => [new]
  | old :: rest => if old.key = new.key then renew old new :: rest else old :: upsert new rest

/-- Whether a row has not expired. -/
def isLive (now : Nat) (row : SnapshotRow) : Bool :=
  now < row.expiresAt

/-- Keeps an execution under a key for a number of seconds. -/
def set (store : TableStore) (now : Nat) (written : Instant) (key : String) (e : Execution)
    (seconds : Nat) : TableStore :=
  upsert (row now written key e seconds) store

/-- The execution under a key. -/
def get (store : TableStore) (now : Nat) (key : String) : Except StoreFault (Option Execution) :=
  match store.find? fun row => row.key == key && isLive now row with
  | none => .ok none
  | some row => row.snapshot.read.map some

/-- Drops what has expired, and says how many rows that were. -/
def purge (store : TableStore) (now : Nat) : Nat × TableStore :=
  (store.countP fun row => !isLive now row, store.filter (isLive now))

/-- The live snapshots of a funnel, the one written last first. -/
def list (store : TableStore) (now : Nat) (funnelId : String) (limit : Nat) :
    Except StoreFault (List Execution) :=
  let rows := store.filter fun row => row.funnelId == funnelId && isLive now row
  let sorted := rows.mergeSort fun a b => !decide (a.updatedAt < b.updatedAt)
  (sorted.take limit).mapM fun row => row.snapshot.read

/-- A table as runs use it, with a calendar for its clock. -/
def access (calendar : Nat → Instant) : StoreAccess TableStore where
  set := fun store now key e seconds => (.ok (), store.set now (calendar now) key e seconds)
  get := fun store now key => (store.get now key, store)

end TableStore

end Outreach
