/-!
# The time of a run

A run has a budget of milliseconds for its executors and for the pauses before it tries again. A
wait that takes exactly what is left fits; a longer one is cut when the budget is used up.
-/

namespace Outreach

/-- What is left of the time that a run may take; without a limit there is always enough. -/
structure Budget where
  limit : Nat
  remaining : Option Nat
  deriving DecidableEq, Repr

namespace Budget

/-- A budget of milliseconds. -/
def limited (limit : Nat) : Budget :=
  ⟨limit, some limit⟩

/-- No limit. -/
def unlimited : Budget :=
  ⟨0, none⟩

/-- What is left after a wait; nothing where the wait does not fit. -/
def charge (b : Budget) (wait : Nat) : Option Budget :=
  match b.remaining with
  | none => some b
  | some left => if wait ≤ left then some { b with remaining := some (left - wait) } else none

/-- How much of a wait passes before it ends or is cut. -/
def cut (b : Budget) (wait : Nat) : Nat :=
  match b.remaining with
  | none => wait
  | some left => min wait left

end Budget

end Outreach
