import Outreach.Proofs.Executor.BuiltIn
import Outreach.Engine.Run

/-!
# Counting what can be seen

Between two waits a walk makes at most one attempt, and whatever else can be seen then is a
snapshot. So of sightings that are no snapshots, one comes at a time, and it comes with an attempt.
-/

namespace Outreach

namespace Sighting

/-- An attempt at a node. -/
def isAttempt : Sighting → Bool
  | .attempt _ _ => true
  | .snapshot _ => false

/-- An attempt at a condition that chooses a node to jump to. -/
def isJump : Sighting → Bool
  | .attempt n seen => (n.jump? seen.vars).isSome
  | .snapshot _ => false

theorem isAttempt_of_isJump {s : Sighting} (h : s.isJump = true) : s.isAttempt = true := by
  cases s with
  | attempt => rfl
  | snapshot => cases h

end Sighting

namespace Traversal

/-- The attempts of a walk. -/
def attempts (t : Traversal) : Nat :=
  t.trace.countP Sighting.isAttempt

/-- The attempts of a walk at conditions that chose a node to jump to. -/
def jumps (t : Traversal) : Nat :=
  t.trace.countP Sighting.isJump

theorem jumps_le_attempts (t : Traversal) : t.jumps ≤ t.attempts :=
  List.countP_mono_left fun _ _ => Sighting.isAttempt_of_isJump

variable {engine : Engine} {f : Funnel} {t : Traversal} {wake : Wake} {n : Node}

theorem trace_fail (fault : EngineFault) : (t.fail engine wake n fault).trace = t.trace := by
  unfold fail
  dsimp only
  split <;> rfl

section

variable {β : Type} {g : Sighting → Option β} (hg : ∀ e, g (.snapshot e) = none)

include hg

theorem filterMap_settle (step : Step) :
    (t.settle wake n step).trace.filterMap g = t.trace.filterMap g := by
  simp [settle, see, hg]

theorem filterMap_conclude (result : ActionResult) :
    (t.conclude engine f wake n result).trace.filterMap g = t.trace.filterMap g := by
  unfold conclude
  dsimp only
  split
  next => rw [trace_fail]
  next => split <;> rw [filterMap_settle hg]

theorem filterMap_work (isExempt : Bool) (task : Task) :
    (t.work engine f wake n isExempt task).trace.filterMap g = t.trace.filterMap g := by
  cases task with
  | done result => exact filterMap_conclude hg result
  | sleep => rfl
  | ask => rfl

/-- What is seen of an attempt, but for snapshots, is the attempt. -/
theorem filterMap_attempt :
    (t.attempt engine f wake n).trace.filterMap g =
      t.trace.filterMap g ++ (g (.attempt n (t.execution.enter wake.moment n))).toList := by
  let e := t.execution.enter wake.moment n
  have hentered : (t.trace ++ [Sighting.attempt n e]).filterMap g =
      t.trace.filterMap g ++ (g (.attempt n e)).toList := by
    cases hsighting : g (.attempt n e) <;> simp [hsighting]
  unfold attempt see
  dsimp only
  split
  next => rw [trace_fail]; exact hentered
  next => rw [filterMap_work hg]; exact hentered

end

theorem countP_eq_length (p : Sighting → Bool) (trace : List Sighting) :
    trace.countP p = (trace.filterMap (Option.guard p)).length := by
  rw [List.filterMap_eq_filter, List.countP_eq_length_filter]

section

variable {p : Sighting → Bool} (hp : ∀ e, p (.snapshot e) = false)

include hp

theorem guard_snapshot (e : Execution) : Option.guard p (.snapshot e) = none := by
  simp [Option.guard, hp]

theorem countP_settle (step : Step) :
    (t.settle wake n step).trace.countP p = t.trace.countP p := by
  rw [countP_eq_length, filterMap_settle (guard_snapshot hp), countP_eq_length]

theorem countP_work (isExempt : Bool) (task : Task) :
    (t.work engine f wake n isExempt task).trace.countP p = t.trace.countP p := by
  rw [countP_eq_length, filterMap_work (guard_snapshot hp), countP_eq_length]

/-- What an attempt adds to a count is the attempt. -/
theorem countP_attempt :
    (t.attempt engine f wake n).trace.countP p = t.trace.countP p +
      if p (.attempt n (t.execution.enter wake.moment n)) then 1 else 0 := by
  rw [countP_eq_length, filterMap_attempt (guard_snapshot hp), List.length_append,
    countP_eq_length, Option.guard]
  split <;> rfl

theorem countP_attempt_le :
    (t.attempt engine f wake n).trace.countP p ≤ t.trace.countP p + 1 := by
  rw [countP_attempt hp]
  split <;> omega

theorem countP_advance_le :
    (t.advance engine f wake).trace.countP p ≤ t.trace.countP p + 1 := by
  unfold advance
  split
  next => exact Nat.le_succ _
  next n rest _ =>
    dsimp only
    split
    next => exact countP_attempt_le hp
    next => exact Nat.le_succ _

theorem countP_proceed_le (step : Step) :
    (t.proceed engine f wake n step).trace.countP p ≤ t.trace.countP p + 1 := by
  cases step with
  | proceed next => exact countP_advance_le hp
  | finish => exact Nat.le_succ _
  | halt => exact Nat.le_succ _

/-- Between two waits there is at most one attempt. -/
theorem countP_resume_le :
    (t.resume engine f wake).trace.countP p ≤ t.trace.countP p + 1 := by
  unfold resume
  split
  next => exact Nat.le_succ _
  next n step _ => exact countP_proceed_le hp step
  next n isExempt task _ =>
    split
    next => rw [trace_fail]; exact Nat.le_succ _
    next => rw [countP_work hp]; exact Nat.le_succ _
  next n _ =>
    split
    next => exact Nat.le_succ _
    next =>
      dsimp only
      split
      next => exact countP_attempt_le hp
      next => rw [countP_settle hp]; exact Nat.le_succ _

end

theorem jumps_fail (fault : EngineFault) : (t.fail engine wake n fault).jumps = t.jumps := by
  rw [jumps, trace_fail, jumps]

theorem jumps_settle (step : Step) : (t.settle wake n step).jumps = t.jumps :=
  countP_settle (fun _ => rfl) step

theorem jumps_work (isExempt : Bool) (task : Task) :
    (t.work engine f wake n isExempt task).jumps = t.jumps :=
  countP_work (fun _ => rfl) isExempt task

end Traversal

end Outreach
