import Outreach.Engine.Run
import Outreach.Store.Basic

/-!
# Many runs at once

A system holds the calls that were made, the runs that began, the manager and the store that they
share. Whatever happens to it is an `Action`: a call comes in, the longest waiting call gets a slot,
a run is resumed after a wait, or a run is cancelled. Between two actions every run stands still, so
a list of actions is one way in which the runs may interleave.
-/

namespace Outreach

/-- A call and what became of it. -/
inductive Job where
  /-- It waits for a slot. -/
  | waiting (call : Call)
  /-- It has begun. -/
  | begun (run : Run)

/-- Runs that share a manager and a store with state `σ`. -/
structure System (σ : Type) where
  manager : Manager
  jobs : List Job
  store : σ
  reports : List Report

/-- Something that happens to a system. -/
inductive Action where
  | call (call : Call)
  | grant (moment : Moment)
  | resume (job : Nat) (wake : Wake)
  | cancel (id : Identifier)

namespace Sighting

/-- The snapshot that a sighting is, if it is one. -/
def snapshot? : Sighting → Option Execution
  | .snapshot e => some e
  | .attempt _ _ => none

end Sighting

namespace Job

/-- Whether a call waits for a slot. -/
def isWaiting : Job → Bool
  | .waiting _ => true
  | .begun _ => false

/-- The run of a call that has begun. -/
def run? : Job → Option Run
  | .waiting _ => none
  | .begun run => some run

end Job

namespace System

variable {σ : Type}

/-- A system in which nothing has happened. -/
def create (limits : Limits) (store : σ) : System σ :=
  ⟨.create limits.concurrent, [], store, []⟩

/-- Offers snapshots to the store. Whether it takes them makes no difference to the runs. -/
def keep (access : StoreAccess σ) (limits : Limits) (now : Nat) (store : σ)
    (snapshots : List Execution) : σ :=
  snapshots.foldl (fun store e => (access.set store now e.key e limits.keepFor).2) store

/-- Puts a run in its place after a step, and its new snapshots into the store. -/
def place (access : StoreAccess σ) (engine : Engine) (s : System σ) (now : Nat) (job seen : Nat)
    (run : Run) (manager : Manager) : System σ :=
  let snapshots := (run.walk.trace.drop seen).filterMap Sighting.snapshot?
  { s with
    manager,
    jobs := s.jobs.set job (.begun run),
    store := keep access engine.limits now s.store snapshots }

/-- Gives the longest waiting call a slot, if there is such a call and such a slot. -/
def grant (access : StoreAccess σ) (engine : Engine) (s : System σ) (moment : Moment) : System σ :=
  match s.jobs.findIdx? Job.isWaiting, s.manager.acquire? with
  | some i, some manager =>
    match s.jobs[i]? with
    | some (.waiting call) =>
      let (run, manager) := Run.start moment call manager
      s.place access engine moment.now.milliseconds i 0 run manager
    | _ => s
  | _, _ => s

/-- Resumes a run. One that is over reports how it ended and gives its slot back. -/
def resume (access : StoreAccess σ) (engine : Engine) (s : System σ) (job : Nat) (wake : Wake) :
    System σ :=
  match s.jobs[job]? with
  | some (.begun run) =>
    if run.phase = .returned then s
    else
      let (next, manager) := run.resume engine wake s.manager
      let placed :=
        s.place access engine wake.moment.now.milliseconds job run.walk.trace.length next manager
      if next.phase = .returned then
        { placed with
          manager := placed.manager.release,
          reports := placed.reports ++ [next.execution.report] }
      else placed
  | _ => s

/-- What an action does to a system. -/
def perform (access : StoreAccess σ) (engine : Engine) (s : System σ) : Action → System σ
  | .call call => { s with jobs := s.jobs ++ [.waiting call] }
  | .grant moment => s.grant access engine moment
  | .resume job wake => s.resume access engine job wake
  | .cancel id => { s with manager := s.manager.cancel id }

/-- What a list of actions does to a system. -/
def performAll (access : StoreAccess σ) (engine : Engine) (s : System σ) (actions : List Action) :
    System σ :=
  actions.foldl (perform access engine) s

/-- The latest snapshot of an execution. -/
def execution? (access : StoreAccess σ) (s : System σ) (now : Nat) (id : Identifier) :
    Except StoreFault (Option Execution) :=
  (access.get s.store now (Execution.keyOf id)).1

end System

end Outreach
