import Outreach.Delivery.Wiring
import Outreach.Engine.System
import Outreach.Executor.BuiltIn

/-!
# Performances

A performance is one run with nothing else beside it: whenever the run waits, the clock goes on by
as much as the wait takes, and a request is answered by the services of a configuration. A node can
be performed by itself as well.

A run that never stops waiting is not performed forever: after so many waits the performance is broken
off (`Performance.waitLimit`), and the run is left as it is then. Runs as such know no such limit; it
belongs to performances alone.
-/

namespace Outreach

/-- What performances have in common. -/
structure Stage where
  limits : Limits
  addresses : ServiceAddresses
  network : Network
  /-- The time at which the performance begins. -/
  start : Instant
  /-- What makes its identifiers unlike those of other performances. -/
  seed : Nat

namespace Stage

/-- The engine of a stage: all built-in types, and a sender for every channel. -/
def engine (stage : Stage) : Engine :=
  ⟨.builtIn Channel.all, stage.limits⟩

/-- An identifier that nothing else has. -/
def identifier (stage : Stage) (now : Instant) (serial k : Nat) : Identifier :=
  .ofClock now.milliseconds (stage.seed + serial * Nat.pow 2 24 + k)

/-- The point of time so many milliseconds after the beginning. -/
def moment (stage : Stage) (clock serial : Nat) : Moment :=
  let now := stage.start.later clock
  ⟨now, fun k => stage.identifier now serial (k + 1)⟩

/-- What the services reply at a point of time. -/
def reply (stage : Stage) (clock serial : Nat) : (request : Request) → Reply request :=
  stage.addresses.reply stage.network (stage.identifier (stage.start.later clock) serial 0)

/-- Does the work of a node. -/
def finish (stage : Stage) : Task → (clock serial : Nat) → ActionResult
  | .done result, _, _ => result
  | .sleep wait next, clock, serial =>
    stage.finish (next (stage.start.later (clock + wait))) (clock + wait) (serial + 1)
  | .ask request next, clock, serial =>
    stage.finish (next (stage.start.later clock) (stage.reply clock serial request)) clock
      (serial + 1)

/-- What comes of a node by itself, if its type has an executor. -/
def performNode? (stage : Stage) (node : Node) (e : Execution) : Option ActionResult :=
  (stage.engine.registry.executor? node.type).map fun x =>
    stage.finish (x.perform stage.start node e) 0 0

end Stage

/-- How far a performance has come. -/
structure Performance (σ : Type) where
  clock : Nat
  serial : Nat
  system : System σ

namespace Performance

variable {σ : Type}

/-- The only run. -/
def run? (p : Performance σ) : Option Run :=
  p.system.jobs.head?.bind Job.run?

/-- How long a point of a traversal waits. -/
def wait (limits : Limits) : Point → Nat
  | .working _ _ (.sleep time _) => time
  | .pausing _ => limits.retryDelay
  | .saving _ _ | .working _ _ _ | .ended _ => 0

/-- How long a run waits, and how much of that passes before the wait is over or cut short. -/
def waitOf (limits : Limits) (run : Run) : Nat × Nat :=
  match run.phase with
  | .walking =>
    let wait := wait limits run.walk.point
    (wait, run.walk.cut wait)
  | .opening | .closing | .returned => (0, 0)

/-- The state of a performance when its run has got its slot. -/
def opened (stage : Stage) (access : StoreAccess σ) (store : σ) (call : Call) : Performance σ :=
  let system := System.create stage.limits store
  ⟨0, 1, system.performAll access stage.engine [.call call, .grant (stage.moment 0 0)]⟩

/-- From one wait to the next; nothing when the run is over. -/
def step? (stage : Stage) (access : StoreAccess σ) (p : Performance σ) : Option (Performance σ) :=
  match p.run? with
  | none => none
  | some run =>
    if run.phase = .returned then none
    else
      let (wait, passed) := waitOf stage.limits run
      let clock := p.clock + passed
      let wake : Wake := ⟨stage.moment clock p.serial, false, wait, stage.reply clock p.serial⟩
      some ⟨clock, p.serial + 1, p.system.perform access stage.engine (.resume 0 wake)⟩

/-- Goes from wait to wait, at most so many of them. -/
def play (stage : Stage) (access : StoreAccess σ) : (waits : Nat) → Performance σ → Performance σ
  | 0, p => p
  | waits + 1, p =>
    match p.step? stage access with
    | none => p
    | some next => play stage access waits next

/-- The number of waits after which a performance is broken off, with its run still under way. -/
def waitLimit : Nat := 1000000

/-- A whole performance. -/
def ofCall (stage : Stage) (access : StoreAccess σ) (store : σ) (call : Call) : Performance σ :=
  (opened stage access store call).play stage access waitLimit

end Performance

end Outreach
