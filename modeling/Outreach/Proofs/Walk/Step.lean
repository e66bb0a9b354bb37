import Outreach.Proofs.Execution.Frame
import Outreach.Proofs.Run.Invariant
import Outreach.Proofs.Walk.Sightings

/-!
# From one wait of a walk to the next

Between two waits a walk does one of a few things (`Traversal.Steps`): it takes up the work at a node
again, it tries a node, or it comes to rest without either. In each case at most one error is
recorded, and only at a node that fails then (`Traversal.Steps.records`).
-/

namespace Outreach

namespace Sighting

/-- The node that an attempt is at. -/
def tried? : Sighting → Option Node
  | .attempt n _ => some n
  | .snapshot _ => none

/-- A snapshot is no attempt. -/
theorem filterMap_tried?_snapshot (trace : List Sighting) (e : Execution) :
    (trace ++ [snapshot e]).filterMap tried? = trace.filterMap tried? := by
  simp [tried?]

theorem filterMap_tried?_attempt (trace : List Sighting) (n : Node) (e : Execution) :
    (trace ++ [Sighting.attempt n e]).filterMap tried? = trace.filterMap tried? ++ [n] := by
  simp [tried?]

end Sighting

namespace Traversal

/-- The nodes that a walk has tried, in order. -/
def tried (t : Traversal) : List Node :=
  t.trace.filterMap Sighting.tried?

theorem length_tried (t : Traversal) : t.tried.length = t.attempts := by
  rw [tried, List.length_filterMap_eq_countP, attempts]
  refine List.countP_congr fun s _ => ?_
  cases s <;> simp [Sighting.tried?, Sighting.isAttempt]

section

variable {engine : Engine} {f : Funnel} {t : Traversal} {wake : Wake} {n : Node}

theorem tried_see_snapshot (t : Traversal) (e : Execution) :
    (t.see (.snapshot e)).tried = t.tried :=
  Sighting.filterMap_tried?_snapshot ..

theorem tried_fail (fault : EngineFault) : (t.fail engine wake n fault).tried = t.tried := by
  rw [tried, trace_fail, tried]

theorem tried_settle (step : Step) : (t.settle wake n step).tried = t.tried :=
  filterMap_settle (fun _ => rfl) step

theorem tried_conclude (result : ActionResult) :
    (t.conclude engine f wake n result).tried = t.tried :=
  filterMap_conclude (fun _ => rfl) result

theorem tried_work (isExempt : Bool) (task : Task) :
    (t.work engine f wake n isExempt task).tried = t.tried :=
  filterMap_work (fun _ => rfl) isExempt task

/-- An attempt is at its node. -/
theorem tried_attempt : (t.attempt engine f wake n).tried = t.tried ++ [n] :=
  filterMap_attempt fun _ => rfl

end

/-! ## Going on -/

section

variable (engine : Engine) (f : Funnel) (wake : Wake) (t t' : Traversal)

/-- What becomes of a walk that may go on: it ends, or it tries a node of the funnel. -/
inductive Goes : Prop
  | ends {outcome : Except EngineFault Unit} (hpoint : t'.point = .ended outcome)
      (herrors : t'.execution.errors = t.execution.errors) (htried : t'.tried = t.tried)
  | tries {u : Traversal} {n : Node} (hn : n ∈ f.nodes) (hattempt : t' = u.attempt engine f wake n)
      (herrors : u.execution.errors = t.execution.errors) (htried : u.tried = t.tried)

/-- What becomes of a walk that waits. -/
inductive Steps : Prop
  /-- It goes on. -/
  | goes (h : t.Goes engine f wake t')
  /-- It is over already. -/
  | stays {outcome : Except EngineFault Unit} (hpoint : t.point = .ended outcome) (h : t' = t)
  /-- It notices that it is cancelled before it tries a node again. -/
  | halts {n : Node} (hfrom : t.point = .pausing n) (hto : t'.point = .saving n .halt)
      (herrors : t'.execution.errors = t.execution.errors) (htried : t'.tried = t.tried)
  /-- It takes up the work at a node again. -/
  | works {n : Node} {isExempt : Bool} {task : Task} {budget : Budget}
      (hfrom : t.point = .working n isExempt task) (hcharge : t.charge wake.spent = some budget)
      (hwork : t' = { t with budget }.work engine f wake n isExempt (continueTask task wake))
  /-- Its time is over while a node is at work. -/
  | expires {n : Node} {isExempt : Bool} {task : Task} (hfrom : t.point = .working n isExempt task)
      (hcharge : t.charge wake.spent = none)
      (hfail : t' = t.fail engine wake n (.timeout t.budget.limit))

variable {engine f wake t t'}

/-- Only the errors and attempts that were there before matter. -/
theorem Goes.of_same {u : Traversal} (h : u.Goes engine f wake t')
    (herrors : u.execution.errors = t.execution.errors) (htried : u.tried = t.tried) :
    t.Goes engine f wake t' := by
  cases h with
  | ends hpoint herrors' htried' =>
    exact .ends hpoint (herrors'.trans herrors) (htried'.trans htried)
  | tries hn hattempt herrors' htried' =>
    exact .tries hn hattempt (herrors'.trans herrors) (htried'.trans htried)

theorem goes_advance (hpending : t.pending ⊆ f.nodes) :
    t.Goes engine f wake (t.advance engine f wake) := by
  unfold advance
  split
  next => exact .ends rfl rfl rfl
  next n rest hrest =>
    have hn : n ∈ f.nodes := hpending (hrest ▸ List.mem_cons_self)
    have herrors := t.execution.errors_observe wake.moment wake.cancelled
    dsimp only
    split
    next => exact .tries hn rfl herrors rfl
    next => exact .ends rfl herrors rfl

theorem goes_proceed (hpending : t.pending ⊆ f.nodes) {n : Node} {step : Step}
    (hstep : ∀ next, step = .proceed next → next ⊆ f.nodes) :
    t.Goes engine f wake (t.proceed engine f wake n step) := by
  cases step with
  | proceed next =>
    have hpushed : next ++ t.pending ⊆ f.nodes := List.append_subset.mpr ⟨hstep next rfl, hpending⟩
    have hgoes : Goes engine f wake { t with pending := next ++ t.pending } _ := goes_advance hpushed
    exact hgoes.of_same rfl rfl
  | finish => exact .ends rfl (t.execution.errors_stop wake.moment n) rfl
  | halt => exact .ends rfl rfl rfl

/-- **A walk takes one of a few steps from one wait to the next.** -/
theorem steps_resume {Q : Node → Task → Prop} (hpending : t.pending ⊆ f.nodes)
    (hpoint : t.point.BelongsTo engine f Q) : t.Steps engine f wake (t.resume engine f wake) := by
  unfold resume
  split
  next hp => exact .stays hp rfl
  next n step hp =>
    rw [hp] at hpoint
    exact .goes (goes_proceed hpending hpoint.2)
  next n isExempt task hp =>
    split
    next hcharge => exact .expires hp hcharge rfl
    next budget hcharge => exact .works hp hcharge rfl
  next n hp =>
    rw [hp] at hpoint
    split
    next => exact .goes (.ends rfl rfl rfl)
    next budget _ =>
      have herrors := t.execution.errors_observe wake.moment wake.cancelled
      dsimp only
      split
      next => exact .goes (.tries hpoint rfl herrors rfl)
      next => exact .halts hp rfl (by rw [settle]; simp [see]) (tried_settle _)

end

/-- A step by which a node was tried is an attempt at this node. -/
theorem Steps.exists_attempt {engine : Engine} {f : Funnel} {wake : Wake} {t t' : Traversal}
    {n : Node} (h : t.Steps engine f wake t') (htried : t'.tried = t.tried ++ [n]) :
    ∃ u : Traversal, t' = u.attempt engine f wake n ∧
      u.execution.errors = t.execution.errors ∧ u.tried = t.tried := by
  have hnew : t'.tried ≠ t.tried := by simp [htried]
  cases h with
  | goes h =>
    cases h with
    | ends _ _ hsame => exact absurd hsame hnew
    | @tries u m _ hattempt herrors hsame =>
      rw [hattempt, tried_attempt, hsame] at htried
      obtain rfl : m = n := by simpa using htried
      exact ⟨u, hattempt, herrors, hsame⟩
  | stays _ hsame => exact absurd (hsame ▸ rfl) hnew
  | halts _ _ _ hsame => exact absurd hsame hnew
  | works _ _ hwork => exact absurd (hwork ▸ tried_work _ _) hnew
  | expires _ _ hfail => exact absurd (hfail ▸ tried_fail _) hnew

/-! ## After a pause -/

section

variable (engine : Engine) (f : Funnel) {wake : Wake} {t : Traversal} {n : Node}
  (hpoint : t.point = .pausing n)

include hpoint

/-- A pause that fits into the budget is followed by another attempt, unless the run is cancelled. -/
theorem resume_of_fits {budget : Budget} (hfits : t.charge wake.spent = some budget)
    (hrun : t.execution.isRunning = true) (hcalm : wake.cancelled = false) :
    t.resume engine f wake = { t with budget }.attempt engine f wake n := by
  have hsame : t.execution.observe wake.moment wake.cancelled = t.execution := by
    rw [hcalm, Execution.observe_false]
  unfold resume
  rw [hpoint]
  dsimp only
  rw [hfits]
  dsimp only
  rw [hsame, if_pos hrun]

/-- A run that is cancelled in a pause notices it when the pause is over. -/
theorem resume_of_cancelled {budget : Budget} (hfits : t.charge wake.spent = some budget)
    (hrun : t.execution.isRunning = true) (hcancelled : wake.cancelled = true) :
    (t.resume engine f wake).execution.status = .cancelled ∧
      (t.resume engine f wake).point = .saving n .halt ∧
      (t.resume engine f wake).tried = t.tried := by
  let e := t.execution.observe wake.moment wake.cancelled
  have hstatus : e.status = .cancelled := by
    dsimp only [e]
    rw [Execution.observe, hcancelled, hrun, Bool.and_self, if_pos rfl,
      Execution.move_of_isRunning hrun rfl]
    rfl
  have hover : e.isRunning = false := by
    rw [Execution.isRunning, hstatus]
    rfl
  have hresume : t.resume engine f wake = { t with budget, execution := e }.settle wake n .halt := by
    unfold resume
    rw [hpoint]
    dsimp only
    rw [hfits]
    dsimp only
    rw [if_neg (by rw [hover]; exact Bool.false_ne_true)]
  rw [hresume]
  refine ⟨?_, rfl, tried_settle _⟩
  change (e.observe wake.moment wake.cancelled).status = .cancelled
  rw [Execution.observe_of_not_isRunning hover, hstatus]

/-- A pause that does not fit into the budget ends the walk. -/
theorem resume_of_not_fits (hlong : t.charge wake.spent = none) :
    t.resume engine f wake = t.finish (.error (.timeout t.budget.limit)) := by
  unfold resume
  rw [hpoint]
  dsimp only
  rw [hlong]

end

/-! ## Failures -/

section

variable (engine : Engine) (wake : Wake) (t t' : Traversal) (n : Node)

/-- What a walk records while it is about a node: nothing, or a failure of the node. -/
inductive Records : Prop
  | nothing (herrors : t'.execution.errors = t.execution.errors)
  | failure {u : Traversal} {fault : EngineFault} (hfault : n.Fails engine (fun _ _ => True) fault)
      (hfail : t' = u.fail engine wake n fault) (herrors : u.execution.errors = t.execution.errors)

variable {engine wake t t' n} {f : Funnel}

/-- Only the errors that were there before matter. -/
theorem Records.of_errors {u : Traversal} (h : u.Records engine wake t' n)
    (herrors : u.execution.errors = t.execution.errors) : t.Records engine wake t' n := by
  cases h with
  | nothing hsame => exact .nothing (hsame.trans herrors)
  | failure hfault hfail hsame => exact .failure hfault hfail (hsame.trans herrors)

theorem records_conclude (result : ActionResult) :
    t.Records engine wake (t.conclude engine f wake n result) n := by
  unfold conclude
  dsimp only
  split
  next hfail =>
    have hfail : result.success = false := by simpa using hfail
    exact .failure (.result trivial hfail) rfl rfl
  next =>
    split
    next => exact .nothing (by simp [settle, see])
    next => exact .nothing (by simp [settle, see])

theorem records_work (isExempt : Bool) (task : Task) :
    t.Records engine wake (t.work engine f wake n isExempt task) n := by
  cases task with
  | done result => exact records_conclude result
  | sleep => exact .nothing rfl
  | ask => exact .nothing rfl

theorem records_attempt : t.Records engine wake (t.attempt engine f wake n) n := by
  let e := t.execution.enter wake.moment n
  let entered := see { t with execution := e } (.attempt n e)
  unfold attempt
  dsimp only
  split
  next hx => exact .failure (u := entered) (.noExecutor hx) rfl rfl
  next x hx =>
    have hentered : entered.Records engine wake (entered.work engine f wake n x.isExempt
        (x.perform wake.moment.now n e)) n := records_work _ _
    exact hentered.of_errors rfl

/-- A walk that goes on records at most one error, at a node that it tries. -/
theorem Goes.records (h : t.Goes engine f wake t') :
    t'.execution.errors = t.execution.errors ∨
      ∃ n, t.Records engine wake t' n ∧ t'.tried = t.tried ++ [n] := by
  cases h with
  | ends _ herrors _ => exact .inl herrors
  | @tries u n _ hattempt herrors htried =>
    refine .inr ⟨n, hattempt ▸ records_attempt.of_errors herrors, ?_⟩
    rw [hattempt, tried_attempt, htried]

/-- **A step records at most one error**, at a node that is tried or was at work. -/
theorem Steps.records (h : t.Steps engine f wake t') :
    t'.execution.errors = t.execution.errors ∨
      ∃ n, t.Records engine wake t' n ∧
        (t'.tried = t.tried ++ [n] ∨ t'.tried = t.tried ∧ t.point.stage = .trying n) := by
  cases h with
  | goes h => exact h.records.imp_right fun ⟨n, hn, htried⟩ => ⟨n, hn, .inl htried⟩
  | stays _ h => exact .inl (h ▸ rfl)
  | halts _ _ herrors _ => exact .inl herrors
  | @works n isExempt task budget hfrom _ hwork =>
    have hcharged : Records engine wake { t with budget } t' n :=
      hwork ▸ records_work isExempt (continueTask task wake)
    refine .inr ⟨n, hcharged.of_errors rfl, .inr ⟨?_, by rw [hfrom]; rfl⟩⟩
    rw [hwork, tried_work]
    rfl
  | @expires n _ _ hfrom _ hfail =>
    refine .inr ⟨n, .failure (.timeout _) hfail rfl, .inr ⟨?_, by rw [hfrom]; rfl⟩⟩
    rw [hfail, tried_fail]

variable (engine wake n)

/-- A failure is recorded with its text. -/
theorem errors_fail (t : Traversal) (fault : EngineFault) :
    ∃ entry, (t.fail engine wake n fault).execution.errors = t.execution.errors ++ [entry] ∧
      entry.node = some n.id ∧ entry.message = fault.message ∧
      entry.isRetryable = fault.isRetryable := by
  unfold fail
  dsimp only
  split <;> exact ⟨_, rfl, rfl, rfl, rfl⟩

/-- Where a walk stands after a failure hangs on the errors that are recorded then. -/
theorem point_fail (t : Traversal) (fault : EngineFault) :
    (t.fail engine wake n fault).point =
      if engine.limits.allowsRetry fault ((t.fail engine wake n fault).execution.errorsAt n.id) then
        .pausing n
      else .ended (.error fault) := by
  have hcount : (t.fail engine wake n fault).execution.errorsAt n.id =
      (t.execution.recordFault wake.moment n fault).errorsAt n.id := by
    unfold fail
    dsimp only
    split <;> rfl
  rw [hcount]
  unfold fail
  dsimp only
  split
  next hretry => exact (if_pos hretry).symm
  next hretry => exact (if_neg hretry).symm

end

end Traversal

end Outreach
