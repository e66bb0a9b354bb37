import Outreach.Engine.System
import Outreach.Rehearsal.Script
import Outreach.Store.Memory

/-!
# Rehearsals

A rehearsal runs funnels against scripted services on a clock of its own, which jumps from one event
to the next: calls come in at given times, services take the time that their scripts say, and runs
are cancelled at given times. Everything that happens is written down with its time. The wall clock
stands still meanwhile.
-/

namespace Outreach

/-- What is rehearsed: the engine, the store, the services, the calls with the times at which they
come in, and the times at which every run under way is cancelled. -/
structure Rehearsal where
  engine : Engine
  access : StoreAccess MemoryStore
  services : Services
  calls : List (Nat × Call)
  cancels : List Nat

/-- A run that waits, until when, and what it will be told. -/
structure Timer where
  job : Nat
  due : Nat
  spent : Nat
  reply : (request : Request) → Reply request
  cancels : Bool

/-- A run that was asked to stop. -/
structure CancelNote where
  time : Nat
  funnelId : String
  before : Bool
  accepted : Bool
  after : Bool

namespace Rehearsal

/-- The wall clock of every rehearsal. -/
def wallClock : Instant := ⟨1767323045, 123456789⟩

/-- The point of time of an event, with identifiers that no other event has. -/
def moment (serial : Nat) : Moment :=
  ⟨wallClock, fun k => ⟨(serial + 1) * Nat.pow 2 64 + k⟩⟩

/-- What a wait brings. -/
structure Wait where
  time : Nat
  reply : (request : Request) → Reply request
  cancels : Bool

/-- A wait that brings nothing in particular. -/
def plainWait (services : Services) (time : Nat) : Wait :=
  ⟨time, services.reply [], false⟩

/-- What a point of a traversal waits for, and the request that it makes. -/
def waitAt (limits : Limits) (services : Services) (counts : Requests) : Point → Wait × Option Request
  | .saving _ _ | .ended _ => (plainWait services 0, none)
  | .pausing _ => (plainWait services limits.retryDelay, none)
  | .working _ _ (.done _) => (plainWait services 0, none)
  | .working _ _ (.sleep time _) => (plainWait services time, none)
  | .working _ _ (.ask request _) =>
    (⟨services.time counts request, services.reply counts, services.cancels counts request⟩,
      some request)

/-- Where a rehearsal stands. -/
structure State where
  clock : Nat
  serial : Nat
  system : System MemoryStore
  counts : Requests
  timers : List Timer
  calls : List (Nat × Call)
  cancels : List Nat
  /-- The requests that were made, with their times, the latest first. -/
  requests : List (Nat × Request)
  /-- The snapshots that were written, with their runs and times, the latest first. -/
  snapshots : List (Nat × Nat × Execution)
  notes : List CancelNote
  /-- The runs that ended, with their times. -/
  ended : List (Nat × Nat)

namespace State

/-- The run of a job, if it has begun. -/
def run? (s : State) (job : Nat) : Option Run :=
  s.system.jobs[job]?.bind Job.run?

/-- Writes down what became visible of a run. -/
def record (s : State) (job seen : Nat) (run : Run) : State :=
  let new := (run.walk.trace.drop seen).filterMap Sighting.snapshot?
  { s with snapshots := (new.map fun e => (job, s.clock, e)).reverse ++ s.snapshots }

/-- Sets the timer of a run that waits, and makes its request. -/
def schedule (r : Rehearsal) (s : State) (job : Nat) (run : Run) : State :=
  if run.phase = .returned then { s with ended := s.ended ++ [(job, s.clock)] }
  else
    let (wait, request) := match run.phase with
      | .walking => waitAt r.engine.limits r.services s.counts run.walk.point
      | _ => (plainWait r.services 0, none)
    let passed := match run.phase with
      | .walking => run.walk.cut wait.time
      | _ => 0
    let timer : Timer :=
      ⟨job, s.clock + passed, wait.time, wait.reply, wait.cancels && passed == wait.time⟩
    let s := { s with timers := timer :: s.timers }
    match request with
    | none => s
    | some q => { s with counts := s.counts.note q, requests := (s.clock, q) :: s.requests }

/-- Performs an action on one job, and takes note of what follows from it. -/
def act (r : Rehearsal) (s : State) (job : Nat) (action : Action) : State :=
  let seen := ((s.run? job).map fun run => run.walk.trace.length).getD 0
  let s := { s with
    serial := s.serial + 1,
    system := s.system.perform r.access r.engine action }
  match s.run? job with
  | none => s
  | some run => (s.record job seen run).schedule r job run

/-- The call that is next to get a slot, if a slot is free. -/
def admissible? (s : State) : Option Nat :=
  if s.system.manager.taken < s.system.manager.capacity then
    s.system.jobs.findIdx? Job.isWaiting
  else none

/-- Wakes a run. -/
def wake (r : Rehearsal) (s : State) (t : Timer) : State :=
  let s := { s with clock := t.due, timers := s.timers.filter fun other => other.job != t.job }
  let s := if t.cancels then
      match s.run? t.job with
      | some run =>
        { s with system := s.system.perform r.access r.engine (.cancel run.execution.id) }
      | none => s
    else s
  s.act r t.job (.resume t.job ⟨moment s.serial, false, t.spent, t.reply⟩)

/-- Cancels every run under way. -/
def cancelAll (r : Rehearsal) (s : State) (time : Nat) : State :=
  s.system.manager.active.foldl (fun s run =>
    let before := (s.system.manager.status? run.id).getD false
    let system := s.system.perform r.access r.engine (.cancel run.id)
    let note : CancelNote :=
      ⟨time, run.funnelId, before, s.system.manager.isActive run.id,
        (system.manager.status? run.id).getD false⟩
    { s with system, notes := s.notes ++ [note] }) { s with clock := time }

/-- The timer that runs out first; of several the one of the earliest call. -/
def nextTimer? (s : State) : Option Timer :=
  s.timers.foldl (fun best t =>
    match best with
    | none => some t
    | some b => if t.due < b.due ∨ (t.due = b.due ∧ t.job < b.job) then some t else some b) none

/-- Whether something happens at a time that none of the other times lies before. -/
def isFirst (time : Option Nat) (others : List (Option Nat)) : Bool :=
  time.any fun t => others.all fun other => other.all fun u => t ≤ u

/-- Takes in the next call. -/
def receive (r : Rehearsal) (s : State) : State :=
  match s.calls with
  | [] => s
  | (time, call) :: rest =>
    { s with
      clock := time, calls := rest, serial := s.serial + 1,
      system := s.system.perform r.access r.engine (.call call) }

/-- The next event, if a run is under way or a call is left. Of events at the same time calls come
before wakings, and these before cancellations. -/
def step? (r : Rehearsal) (s : State) : Option State :=
  match s.admissible? with
  | some job => some (s.act r job (.grant (moment s.serial)))
  | none =>
    let timer := s.nextTimer?
    let due := timer.map Timer.due
    let cancel := s.cancels.head?
    if s.calls.isEmpty && timer.isNone then none
    else if isFirst (s.calls.head?.map Prod.fst) [due, cancel] then some (s.receive r)
    else if isFirst due [cancel] then timer.map (s.wake r)
    else cancel.map fun time => { s.cancelAll r time with cancels := s.cancels.drop 1 }

/-- Goes from event to event, at most so many of them. -/
def play (r : Rehearsal) : (events : Nat) → State → State
  | 0, s => s
  | events + 1, s =>
    match s.step? r with
    | none => s
    | some next => play r events next

end State

/-- The number of events after which a rehearsal is broken off. -/
def eventLimit : Nat := 1000000

/-- Where a rehearsal begins. -/
def initial (r : Rehearsal) : State where
  clock := 0
  serial := 0
  system := .create r.engine.limits []
  counts := []
  timers := []
  calls := r.calls.mergeSort fun a b => a.1 ≤ b.1
  cancels := r.cancels.mergeSort (· ≤ ·)
  requests := []
  snapshots := []
  notes := []
  ended := []

/-- A whole rehearsal. It is over when no run is under way and no call is left. -/
def perform (r : Rehearsal) : State :=
  r.initial.play r eventLimit

/-- The number of each call in the order in which the calls come in. -/
def places (r : Rehearsal) : List Nat :=
  let calls := r.calls.map Prod.fst |>.zipIdx
  let sorted := calls.mergeSort fun a b => a.1 ≤ b.1
  calls.map fun c => (sorted.findIdx? fun other => other.2 == c.2).getD 0

/-- When the run of a job ended. -/
def State.endOf (s : State) (job : Nat) : Nat :=
  ((s.ended.find? fun x => x.1 == job).map Prod.snd).getD s.clock

/-- The snapshots of a job, with their times. -/
def State.snapshotsOf (s : State) (job : Nat) : List (Nat × Execution) :=
  (s.snapshots.reverse.filter fun x => x.1 == job).map Prod.snd

end Rehearsal

end Outreach
