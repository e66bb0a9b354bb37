import Outreach.Rehearsal.Basic

/-!
# Rehearsals of parts

A single node, or a walk from some node on, against scripted services. A walk has no limit of time
and does not settle its execution in the end; it heeds a cancellation if its execution is registered.
-/

namespace Outreach.Rehearsal

/-- What became of a single node. -/
structure NodeOutcome where
  clock : Nat
  counts : Requests
  requests : List (Nat × Request)
  result : ActionResult

/-- Does the work of a node. -/
def performTask (services : Services) (now : Instant) :
    Task → (clock : Nat) → Requests → List (Nat × Request) → NodeOutcome
  | .done result, clock, counts, requests => ⟨clock, counts, requests.reverse, result⟩
  | .sleep time next, clock, counts, requests =>
    performTask services now (next now) (clock + time) counts requests
  | .ask request next, clock, counts, requests =>
    performTask services now (next now (services.reply counts request))
      (clock + services.time counts request) (counts.note request) ((clock, request) :: requests)

/-- Tries a node of an execution, if its type has an executor. -/
def performNode? (registry : Registry) (services : Services) (node : Node) (e : Execution) :
    Option NodeOutcome :=
  (registry.executor? node.type).map fun x =>
    performTask services wallClock (x.perform wallClock node e) 0 [] []

/-- Where a walk stands. -/
structure Walk where
  traversal : Traversal
  manager : Manager
  token : Option Nat
  clock : Nat
  serial : Nat
  counts : Requests
  requests : List (Nat × Request)
  snapshots : List (Nat × Execution)

namespace Walk

/-- Whether a walk is cancelled. -/
def isCancelled (w : Walk) : Bool :=
  w.token.any w.manager.isTripped

/-- Takes note of the snapshots since the traversal was last seen. -/
def record (w : Walk) (traversal : Traversal) : Walk :=
  let new := (traversal.trace.drop w.traversal.trace.length).filterMap Sighting.snapshot?
  { w with
    traversal, serial := w.serial + 1,
    snapshots := w.snapshots ++ new.map fun e => (w.clock, e) }

/-- Sets out from a node. -/
def start (engine : Engine) (services : Services) (f : Funnel) (node : Node) (e : Execution)
    (manager : Manager) : Walk :=
  let w : Walk :=
    ⟨.ready e, manager, (manager.find? e.id).map ActiveRun.token, 0, 0, [], [], []⟩
  let wake : Wake := ⟨moment 0, w.isCancelled, 0, services.reply []⟩
  w.record (w.traversal.start engine f wake node .unlimited)

/-- From one wait to the next. -/
def step (engine : Engine) (services : Services) (f : Funnel) (w : Walk) : Walk :=
  let (wait, request) := waitAt engine.limits services w.counts w.traversal.point
  let w := { w with
    counts := (request.map w.counts.note).getD w.counts,
    requests := w.requests ++ (request.map fun q => (w.clock, q)).toList,
    manager := if wait.cancels then w.manager.cancel w.traversal.execution.id else w.manager,
    clock := w.clock + wait.time }
  w.record (w.traversal.resume engine f ⟨moment w.serial, w.isCancelled, wait.time, wait.reply⟩)

/-- Walks on, at most so many steps, and says how the walk ended. -/
def play (engine : Engine) (services : Services) (f : Funnel) :
    (steps : Nat) → Walk → Walk × Except EngineFault Unit
  | 0, w => (w, .ok ())
  | steps + 1, w =>
    match w.traversal.point with
    | .ended outcome => (w, outcome)
    | _ => play engine services f steps (w.step engine services f)

end Walk

end Outreach.Rehearsal
