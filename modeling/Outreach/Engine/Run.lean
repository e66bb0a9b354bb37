import Outreach.Engine.Manager
import Outreach.Engine.Traversal

/-!
# Runs

A run takes a funnel from its entry to its end. It registers with the manager, writes a first
snapshot, walks through the funnel within its time, settles its status, deregisters, writes a last
snapshot and reports how it ended. Whatever goes wrong in it is recorded in its execution.
-/

namespace Outreach

/-- What is asked of the engine. -/
structure Call where
  funnel : Funnel
  triggerId : Option String
  vars : Variables

/-- How far a run has come. -/
inductive Phase where
  /-- The first snapshot is being written. -/
  | opening
  /-- It walks through its funnel. -/
  | walking
  /-- The last snapshot is being written. -/
  | closing
  /-- It is over. -/
  | returned
  deriving DecidableEq, Repr

/-- How a run ended, as it is reported. -/
inductive Report where
  | ended (status : Status)
  | failed (status : Status) (reason : String)
  deriving DecidableEq, Repr

/-- A run. -/
structure Run where
  funnel : Funnel
  token : Option Nat
  phase : Phase
  walk : Traversal

namespace Execution

/-- The execution of a call when it has a slot: running, with the name and version of its funnel. -/
def ofCall (moment : Moment) (call : Call) : Execution :=
  let metadata := Members.ofEntries
    [("funnelName", .string call.funnel.name), ("funnelVersion", .nat call.funnel.version)]
  let e := { create moment call.funnel.id call.triggerId call.vars with metadata }
  (e.move moment .running).log moment .info none
    ("execution of funnel '" ++ call.funnel.id ++ "' started")
    (some (.record [("triggerId", .textOrNull call.triggerId),
      ("nodes", .nat call.funnel.nodes.length)]))

/-- Ends an execution that a fault stopped. -/
def abort (e : Execution) (moment : Moment) (fault : EngineFault) : Execution :=
  ((e.move moment .failed).recordError moment none fault.message none fault.isRetryable).log moment
    .error none ("execution failed: " ++ fault.message) none

/-- Ends an execution that came to its end; one that was stopped before stays as it is. -/
def complete (e : Execution) (moment : Moment) : Execution :=
  if e.isRunning then (e.move moment .completed).log moment .info none "execution completed" none
  else e

/-- Ends an execution by the outcome of its traversal. -/
def settle (e : Execution) (moment : Moment) : Except EngineFault Unit → Execution
  | .ok () => e.complete moment
  | .error fault => e.abort moment fault

/-- What is reported of an execution. -/
def report (e : Execution) : Report :=
  if e.status = .failed then
    .failed e.status ((e.errors.getLast?.map ErrorEntry.message).getD "execution failed")
  else .ended e.status

end Execution

namespace Run

/-- The execution of a run. -/
def execution (r : Run) : Execution :=
  r.walk.execution

/-- Whether a run is cancelled. -/
def isCancelled (r : Run) (manager : Manager) : Bool :=
  r.token.any manager.isTripped

/-- Settles a run, deregisters it and writes the last snapshot. -/
def close (r : Run) (moment : Moment) (outcome : Except EngineFault Unit) (manager : Manager) :
    Run × Manager :=
  let e := r.execution.settle moment outcome
  ({ r with phase := .closing, walk := { r.walk with execution := e }.see (.snapshot e) },
    manager.deregister e.id)

/-- Starts a run that has its slot. A run whose identifier is taken fails at once. -/
def start (moment : Moment) (call : Call) (manager : Manager) : Run × Manager :=
  let e := Execution.ofCall moment call
  let r : Run := ⟨call.funnel, none, .opening, .ready e⟩
  match manager.register e.id call.funnel.id moment.now with
  | .ok (token, manager) => ({ r with token := some token, walk := r.walk.see (.snapshot e) }, manager)
  | .error fault => r.close moment (.error fault) manager

/-- Goes on with a walk, or settles the run when the walk is over. -/
def follow (r : Run) (moment : Moment) (walk : Traversal) (manager : Manager) : Run × Manager :=
  let r := { r with phase := .walking, walk }
  match walk.point with
  | .ended outcome => r.close moment outcome manager
  | _ => (r, manager)

/-- From one point at which a run waits to the next. -/
def resume (engine : Engine) (wake : Wake) (r : Run) (manager : Manager) : Run × Manager :=
  let wake := { wake with cancelled := r.isCancelled manager }
  match r.phase with
  | .opening =>
    match r.funnel.entry? with
    | none => r.close wake.moment (.error (.noEntry r.funnel.id)) manager
    | some node =>
      r.follow wake.moment
        (r.walk.start engine r.funnel wake node (.limited engine.limits.timeout)) manager
  | .walking => r.follow wake.moment (r.walk.resume engine r.funnel wake) manager
  | .closing => ({ r with phase := .returned }, manager)
  | .returned => (r, manager)

end Run

end Outreach
