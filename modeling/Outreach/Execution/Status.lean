/-!
# The status of a run

A run is pending, then running, and ends completed, failed or cancelled. It never moves back, and
it does not end without having run.
-/

namespace Outreach

/-- Where a run stands. -/
inductive Status where
  | pending
  | running
  | completed
  | failed
  | cancelled
  deriving DecidableEq, Repr

namespace Status

/-- Every status, in order. -/
def all : List Status :=
  [pending, running, completed, failed, cancelled]

/-- The written form. -/
def label : Status → String
  | pending => "pending"
  | running => "running"
  | completed => "completed"
  | failed => "failed"
  | cancelled => "cancelled"

/-- Whether a run with this status has ended. -/
def isTerminal : Status → Bool
  | completed | failed | cancelled => true
  | pending | running => false

/-- Whether a run may go from one status to another. -/
def canMoveTo : Status → Status → Bool
  | pending, running => true
  | running, next => next.isTerminal
  | _, _ => false

/-- How far a status lies from the beginning. -/
def rank : Status → Nat
  | pending => 0
  | running => 1
  | completed | failed | cancelled => 2

end Status

/-- A move from one status to another that is not allowed. -/
structure IllegalMove where
  source : Status
  target : Status
  deriving DecidableEq, Repr

namespace IllegalMove

/-- The text of an illegal move. -/
def message (m : IllegalMove) : String :=
  "illegal execution status transition: " ++ m.source.label ++ " -> " ++ m.target.label

end IllegalMove

end Outreach
