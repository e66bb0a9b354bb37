import Outreach.Engine.Run

/-!
# Counting runs

A tally counts the runs that ended and adds up how long they took, all in 64 bits: a number that gets
past these starts again from zero. To count a run takes two additions, and those who count other runs
at the same time may come in between.
-/

namespace Outreach

/-- The numbers of runs by how they ended, and their time in milliseconds. -/
structure Tally where
  completed : Nat
  cancelled : Nat
  failed : Nat
  duration : Nat
  deriving DecidableEq, Repr

namespace Tally

/-- No runs. -/
def empty : Tally :=
  ⟨0, 0, 0, 0⟩

/-- A sum in 64 bits. -/
def sum64 (a b : Nat) : Nat :=
  (a + b) % Nat.pow 2 64

/-- Adds the time that a run took; a run that ended before it began took none. -/
def addDuration (t : Tally) (e : Execution) : Tally :=
  { t with duration := sum64 t.duration (e.duration?.getD 0).toNat }

/-- Counts a run that ended. -/
def count (t : Tally) (e : Execution) : Tally :=
  match e.status with
  | .cancelled => { t with cancelled := sum64 t.cancelled 1 }.addDuration e
  | .failed => { t with failed := sum64 t.failed 1 }.addDuration e
  | _ => { t with completed := sum64 t.completed 1 }.addDuration e

/-- Counts a run that ended with an error. -/
def countError (t : Tally) (e : Execution) : Tally :=
  { t with failed := sum64 t.failed 1 }.addDuration e

/-- Counts a run by what it reports. -/
def countReport (t : Tally) (e : Execution) : Tally :=
  match e.report with
  | .ended _ => t.count e
  | .failed _ _ => t.countError e

/-- The number of runs. -/
def total (t : Tally) : Nat :=
  sum64 (sum64 t.completed t.cancelled) t.failed

/-- The average time of a run, rounded down; none without runs. -/
def average? (t : Tally) : Option Nat :=
  if t.total = 0 then none else some (t.duration / t.total)

end Tally

/-- One addition to a tally. -/
inductive TallyStep where
  | completed
  | cancelled
  | failed
  | duration (milliseconds : Nat)
  deriving DecidableEq, Repr

namespace TallyStep

/-- The addition of the time that a run took. -/
def ofDuration (e : Execution) : TallyStep :=
  .duration (e.duration?.getD 0).toNat

/-- The additions for a run that ended. -/
def ofEnd (e : Execution) : List TallyStep :=
  match e.status with
  | .cancelled => [.cancelled, ofDuration e]
  | .failed => [.failed, ofDuration e]
  | _ => [.completed, ofDuration e]

/-- The additions for a run that ended with an error. -/
def ofError (e : Execution) : List TallyStep :=
  [.failed, ofDuration e]

/-- The additions for a run by what it reports. -/
def ofReport (e : Execution) : List TallyStep :=
  match e.report with
  | .ended _ => ofEnd e
  | .failed _ _ => ofError e

end TallyStep

namespace Tally

/-- What an addition does. -/
def add (t : Tally) : TallyStep → Tally
  | .completed => { t with completed := sum64 t.completed 1 }
  | .cancelled => { t with cancelled := sum64 t.cancelled 1 }
  | .failed => { t with failed := sum64 t.failed 1 }
  | .duration milliseconds => { t with duration := sum64 t.duration milliseconds }

/-- What additions do one after the other. -/
def addAll (t : Tally) (steps : List TallyStep) : Tally :=
  steps.foldl add t

theorem addAll_append (t : Tally) (first second : List TallyStep) :
    t.addAll (first ++ second) = (t.addAll first).addAll second :=
  List.foldl_append

/-- A run that is counted with nobody coming in between. -/
theorem addAll_ofReport (t : Tally) (e : Execution) :
    t.addAll (TallyStep.ofReport e) = t.countReport e := by
  unfold TallyStep.ofReport countReport TallyStep.ofEnd count
  split
  · split <;> rfl
  · rfl

end Tally

end Outreach
