import Outreach.Execution.Codec
import Outreach.Source.JsonText

/-!
# Snapshots in store

A store keeps the latest snapshot of each execution under a key, as a text, for a time. Its clock
counts milliseconds.
-/

namespace Outreach

/-- Why a store fails. -/
inductive StoreFault where
  | serialization (reason : String)
  | storage (reason : String)
  deriving DecidableEq, Repr

namespace StoreFault

/-- The text of a fault. -/
def message : StoreFault → String
  | serialization reason => "serialization error: " ++ reason
  | storage reason => "storage error: " ++ reason

end StoreFault

/-- The text of a snapshot. -/
abbrev Snapshot := String

namespace Snapshot

/-- The text that is stored of an execution. -/
def ofExecution (e : Execution) : Snapshot :=
  e.toJson.compact

/-- The execution that a text was made of. -/
def read (snapshot : Snapshot) : Except StoreFault Execution :=
  (Execution.layout.read.ofJsonText snapshot).mapError fun fault => .serialization fault.message

end Snapshot

/-- A store with state `σ`, as runs use it. -/
structure StoreAccess (σ : Type) where
  /-- Keeps an execution under a key for a number of seconds. -/
  set : σ → (now : Nat) → (key : String) → Execution → (seconds : Nat) → Except StoreFault Unit × σ
  /-- The execution under a key, if there is one that has not expired. -/
  get : σ → (now : Nat) → (key : String) → Except StoreFault (Option Execution) × σ

namespace StoreAccess

/-- A store that fails whatever is asked of it. -/
def failing (σ : Type) (fault : StoreFault) : StoreAccess σ where
  set := fun store _ _ _ _ => (.error fault, store)
  get := fun store _ _ => (.error fault, store)

end StoreAccess

end Outreach
