import Outreach.Proofs.Run.Ending

/-!
# What is left of a cancelled walk

A walk hears of a cancellation at each of its waits. From then on it tries nothing more: the work at
a node that is under way may come to its result, and the variables of this result are the last that
are put on top of the others (`Traversal.fadesInto_resume`). A walk that is running when it hears of
the cancellation takes note of it, unless it had nothing left to try or a fault of the wait that is
under way ends it (`Traversal.turns_resume`).
-/

namespace Outreach

open Relation (ReflTransGen)

/-- Where a cancellation is noticed nothing runs any more. -/
theorem Execution.isRunning_observe_true (e : Execution) (moment : Moment) :
    (e.observe moment true).isRunning = false := by
  cases hrun : e.isRunning with
  | false => rw [observe_of_not_isRunning hrun, hrun]
  | true =>
    rw [observe, hrun, move_of_isRunning hrun rfl]
    rfl

theorem Execution.status_observe_true {e : Execution} (hrun : e.isRunning = true)
    (moment : Moment) : (e.observe moment true).status = .cancelled := by
  rw [observe, hrun, move_of_isRunning hrun rfl]
  rfl

theorem Execution.status_complete {e : Execution} (hrun : e.isRunning = true) (moment : Moment) :
    (e.complete moment).status = .completed := by
  rw [complete, if_pos hrun, move_of_isRunning hrun rfl]
  rfl

/-- Work, and what is left of it after some of its waits. -/
def Task.LeadsTo : Task → Task → Prop :=
  ReflTransGen fun task rest => ∃ wake, rest = Traversal.continueTask task wake

theorem Task.leadsTo_continueTask (task : Task) (wake : Wake) :
    task.LeadsTo (Traversal.continueTask task wake) :=
  .single ⟨wake, rfl⟩

namespace Traversal

/-- The node that is at work, with what is left of its work. -/
def work? (t : Traversal) : Option (Node × Task) :=
  match t.point with
  | .working n _ task => some (n, task)
  | .saving _ _ | .pausing _ | .ended _ => none

theorem work?_eq_some {t : Traversal} {n : Node} {isExempt : Bool} {task : Task}
    (h : t.point = .working n isExempt task) : t.work? = some (n, task) := by
  rw [work?, h]

theorem work?_eq_none {t : Traversal} (h : t.point.IsIdle) : t.work? = none := by
  unfold work?
  cases hp : t.point with
  | working => simp [hp, Point.IsIdle] at h
  | saving | pausing | ended => rfl

/-- A walk, and what has become of it without another attempt. -/
inductive FadesInto (t t' : Traversal) : Prop
  /-- The variables are as they were; the work that is under way was so before. -/
  | rests (htried : t'.tried = t.tried) (hvars : t'.execution.vars = t.execution.vars)
      (hwork : ∀ n rest, t'.work? = some (n, rest) →
        ∃ task, t.work? = some (n, task) ∧ task.LeadsTo rest)
  /-- The work that was under way has come to a result, whose variables were put on top. -/
  | concludes {n : Node} {task : Task} {result : ActionResult} (hwork : t.work? = some (n, task))
      (hresult : task.LeadsTo (.done result)) (htried : t'.tried = t.tried)
      (hvars : t'.execution.vars = t.execution.vars.merge (result.vars.getD []))
      (hidle : t'.work? = none)

namespace FadesInto

variable {t t' t'' : Traversal}

/-- What lies before a walk, and the time that it has left, do not matter. -/
theorem of_same (htried : t'.tried = t.tried) (hvars : t'.execution.vars = t.execution.vars)
    (hpoint : t'.point = t.point) : t.FadesInto t' := by
  refine .rests htried hvars fun n task htask => ?_
  rw [work?, hpoint] at htask
  exact ⟨task, htask, .refl⟩

theorem refl (t : Traversal) : t.FadesInto t :=
  .of_same rfl rfl rfl

/-- Nothing is under way, and the variables are as they were. -/
theorem of_isIdle (htried : t'.tried = t.tried) (hvars : t'.execution.vars = t.execution.vars)
    (hidle : t'.point.IsIdle) : t.FadesInto t' := by
  refine .rests htried hvars fun n rest hrest => ?_
  rw [work?_eq_none hidle] at hrest
  cases hrest

theorem tried_eq (h : t.FadesInto t') : t'.tried = t.tried := by
  cases h with
  | rests htried => exact htried
  | concludes _ _ htried => exact htried

theorem trans (h : t.FadesInto t') (h' : t'.FadesInto t'') : t.FadesInto t'' := by
  have htried : t''.tried = t.tried := h'.tried_eq.trans h.tried_eq
  cases h with
  | rests _ hvars hwork =>
    cases h' with
    | rests _ hvars' hwork' =>
      refine .rests htried (hvars'.trans hvars) fun n last hlast => ?_
      obtain ⟨rest, hrest, hleads'⟩ := hwork' n last hlast
      obtain ⟨task, htask, hleads⟩ := hwork n rest hrest
      exact ⟨task, htask, hleads.trans hleads'⟩
    | concludes hrest hresult _ hvars' hidle =>
      obtain ⟨task, htask, hleads⟩ := hwork _ _ hrest
      exact .concludes htask (hleads.trans hresult) htried (hvars ▸ hvars') hidle
  | concludes htask hresult _ hvars hidle =>
    cases h' with
    | rests _ hvars' hwork' =>
      refine .concludes htask hresult htried (hvars'.trans hvars) ?_
      -- What was over before is over still.
      refine Option.eq_none_iff_forall_ne_some.mpr fun ⟨n, last⟩ hlast => ?_
      obtain ⟨rest, hrest, -⟩ := hwork' n last hlast
      simp [hidle] at hrest
    | concludes hrest => simp [hidle] at hrest

end FadesInto

section

variable {engine : Engine} {f : Funnel} {t : Traversal} {wake : Wake} {n : Node}

theorem vars_fail (fault : EngineFault) :
    (t.fail engine wake n fault).execution.vars = t.execution.vars := by
  unfold fail
  dsimp only
  split <;> rfl

theorem vars_settle (step : Step) :
    (t.settle wake n step).execution.vars = t.execution.vars :=
  (t.execution.marks_observe wake.moment wake.cancelled).vars_eq

/-- Nothing but the variables of its result is left of an attempt. -/
theorem vars_conclude (result : ActionResult) :
    (t.conclude engine f wake n result).execution.vars =
      t.execution.vars.merge (result.vars.getD []) := by
  unfold conclude
  dsimp only
  split
  next => exact vars_fail _
  next =>
    split
    next => exact vars_settle _
    next => exact (vars_settle _).trans (Execution.marks_onward ..).vars_eq

/-- A failure adds nothing to what could be seen. -/
theorem fadesInto_fail (t : Traversal) (fault : EngineFault) :
    t.FadesInto (t.fail engine wake n fault) :=
  .of_isIdle (tried_fail fault) (vars_fail fault) (isIdle_fail fault)

/-- Work goes on, or it comes to its result. -/
theorem fadesInto_work {isExempt : Bool} {task rest : Task} (hwork : t.work? = some (n, task))
    (hleads : task.LeadsTo rest) : t.FadesInto (t.work engine f wake n isExempt rest) := by
  have hgoes (hopen : (t.work engine f wake n isExempt rest) =
      { t with point := .working n isExempt rest }) :
      t.FadesInto (t.work engine f wake n isExempt rest) := by
    rw [hopen]
    refine .rests rfl rfl ?_
    rintro _ _ ⟨⟩
    exact ⟨task, hwork, hleads⟩
  cases rest with
  | done result =>
    exact .concludes hwork hleads (tried_conclude result) (vars_conclude result)
      (work?_eq_none (isIdle_conclude result))
  | sleep => exact hgoes rfl
  | ask => exact hgoes rfl

variable (hcancelled : wake.cancelled = true)

include hcancelled

/-- A cancelled walk does not go on with the nodes before it. -/
theorem fadesInto_advance (t : Traversal) : t.FadesInto (t.advance engine f wake) := by
  unfold advance
  split
  next => exact .of_isIdle rfl rfl trivial
  next n rest _ =>
    dsimp only
    rw [hcancelled, Execution.isRunning_observe_true]
    exact .of_isIdle rfl (t.execution.marks_observe wake.moment true).vars_eq trivial

theorem fadesInto_proceed (t : Traversal) (step : Step) :
    t.FadesInto (t.proceed engine f wake n step) := by
  cases step with
  | proceed next =>
    have hpushed : t.FadesInto { t with pending := next ++ t.pending } := .of_same rfl rfl rfl
    exact hpushed.trans (fadesInto_advance hcancelled _)
  | finish => exact .of_isIdle rfl (t.execution.marks_stop wake.moment n).vars_eq trivial
  | halt => exact .of_isIdle rfl rfl trivial

/-- **A cancelled walk tries nothing more**, at whatever point it stands. The work at a node that is
under way may come to its result; nothing else changes the variables. -/
theorem fadesInto_resume (t : Traversal) : t.FadesInto (t.resume engine f wake) := by
  unfold resume
  split
  next => exact .refl t
  next n step _ => exact fadesInto_proceed hcancelled t step
  next n isExempt task hp =>
    split
    next => exact fadesInto_fail t _
    next budget _ =>
      have hcharged : t.FadesInto { t with budget } := .of_same rfl rfl rfl
      have hwork : work? { t with budget } = some (n, task) := work?_eq_some hp
      exact hcharged.trans (fadesInto_work hwork (task.leadsTo_continueTask wake))
  next n _ =>
    split
    next => exact .of_isIdle rfl rfl trivial
    next budget _ =>
      dsimp only
      rw [hcancelled, Execution.isRunning_observe_true]
      refine .of_isIdle (tried_settle .halt) ?_ trivial
      exact (vars_settle .halt).trans (t.execution.marks_observe wake.moment true).vars_eq

/-- A walk that is cancelled before it sets out tries nothing at all. -/
theorem fadesInto_start (t : Traversal) (n : Node) (budget : Budget) :
    t.FadesInto (t.start engine f wake n budget) := by
  have hready : t.FadesInto { t with pending := [n], budget } := .of_same rfl rfl rfl
  exact hready.trans (fadesInto_advance hcancelled _)

end

/-! ## The end of a cancelled walk -/

/-- A walk with nothing left to try: a snapshot is written after its last node, or after a node that
asked to end the run. -/
def IsArriving (t : Traversal) : Prop :=
  ∃ n step, t.point = .saving n step ∧ ∀ next, step = .proceed next → next ++ t.pending = []

/-- How a cancelled walk may fail still: its time is over at a node that is at work or waits to be
tried again, or the node that is at work fails and has used up its retries. -/
inductive BreaksBy (engine : Engine) (t : Traversal) (last : Execution) : EngineFault → Prop
  | timeout {n : Node} (h : t.point.stage = .trying n ∨ t.point.stage = .pausing n) :
    BreaksBy engine t last (.timeout t.budget.limit)
  | result {n : Node} {task : Task} {result : ActionResult} (hwork : t.work? = some (n, task))
      (hresult : task.LeadsTo (.done result)) (hfail : result.success = false)
      (hspent : engine.limits.retries < last.errorsAt n.id) :
    BreaksBy engine t last (result.fault n)

/-- What becomes of a walk that is running when it hears that it is cancelled. -/
inductive Turns (engine : Engine) (t t' : Traversal) : Prop
  /-- It had nothing left to try, and comes to its end. -/
  | arrives (h : t.IsArriving) (hpoint : t'.point = .ended (.ok ()))
      (hstatus : ∀ moment, (t'.execution.complete moment).status = .completed)
  /-- It takes note. -/
  | heeds (h : ¬ t.IsArriving) (hpoint : ∀ fault, t'.point ≠ .ended (.error fault))
      (hstatus : t'.execution.status = .cancelled)
  /-- A fault ends it. -/
  | breaks {fault : EngineFault} (h : ¬ t.IsArriving) (hpoint : t'.point = .ended (.error fault))
      (hfault : t.BreaksBy engine t'.execution fault)
  /-- The work at a node goes on, or has failed and may be repeated. -/
  | waits {n : Node} {task : Task} (hwork : t.work? = some (n, task))
      (hopen : ∀ outcome, t'.point ≠ .ended outcome) (hleft : ¬ t'.IsArriving)
      (hrun : t'.execution.isRunning = true) (hlimit : t'.budget.limit = t.budget.limit)
      (hrest : ∀ m rest, t'.work? = some (m, rest) → m = n ∧ task.LeadsTo rest)

section

variable {engine : Engine} {f : Funnel} {t u : Traversal} {wake : Wake} {n : Node}

theorem not_isArriving (h : ∀ n step, t.point ≠ .saving n step) : ¬ t.IsArriving :=
  fun ⟨n, step, hpoint, _⟩ => h n step hpoint

theorem isArriving_iff_of_saving {step : Step} (h : t.point = .saving n step) :
    t.IsArriving ↔ ∀ next, step = .proceed next → next ++ t.pending = [] := by
  constructor
  · rintro ⟨m, other, hother, hempty⟩
    obtain ⟨-, rfl⟩ := Point.saving.inj (h.symm.trans hother)
    exact hempty
  · exact fun hempty => ⟨n, step, h, hempty⟩

theorem point_of_work? {task : Task} (h : t.work? = some (n, task)) :
    ∃ isExempt, t.point = .working n isExempt task := by
  unfold work? at h
  split at h
  next m isExempt rest hp =>
    cases h
    exact ⟨isExempt, hp⟩
  all_goals cases h

theorem not_isArriving_of_work? {task : Task} (h : t.work? = some (n, task)) : ¬ t.IsArriving := by
  obtain ⟨isExempt, hpoint⟩ := point_of_work? h
  exact not_isArriving (by simp [hpoint])

/-- Of the execution at the end only the errors at nodes matter. -/
theorem BreaksBy.congr {last last' : Execution} {fault : EngineFault}
    (h : t.BreaksBy engine last fault) (herrors : ∀ id, last.errorsAt id = last'.errorsAt id) :
    t.BreaksBy engine last' fault := by
  cases h with
  | timeout hstage => exact .timeout hstage
  | result hwork hresult hfail hspent =>
    exact .result hwork hresult hfail (herrors _ ▸ hspent)

/-- What may end a walk that waits might have ended it before. -/
theorem BreaksBy.of_rest {task : Task} {last : Execution} {fault : EngineFault}
    (h : u.BreaksBy engine last fault) (hwork : t.work? = some (n, task))
    (hlimit : u.budget.limit = t.budget.limit)
    (hrest : ∀ m rest, u.work? = some (m, rest) → m = n ∧ task.LeadsTo rest) :
    t.BreaksBy engine last fault := by
  obtain ⟨isExempt, hpoint⟩ := point_of_work? hwork
  cases h with
  | timeout => exact hlimit ▸ .timeout (n := n) (.inl (by rw [hpoint]; rfl))
  | result hwork' hresult hfail hspent =>
    obtain ⟨rfl, hleads⟩ := hrest _ _ hwork'
    exact .result hwork (hleads.trans hresult) hfail hspent

/-- A limit is a limit, however much of it is left. -/
theorem limit_of_charge {budget : Budget} {wait : Nat} (h : t.charge wait = some budget) :
    budget.limit = t.budget.limit := by
  have hcharge {b : Budget} (hb : b.charge wait = some budget) : budget.limit = b.limit := by
    unfold Budget.charge at hb
    split at hb
    next => rw [Option.some.inj hb]
    next =>
      split at hb
      next => rw [← Option.some.inj hb]
      next => cases hb
  unfold charge at h
  split at h
  next => exact hcharge h
  next => rw [Option.some.inj h]

/-- A walk whose work goes on. -/
theorem turns_of_working {task rest : Task} (hwork : t.work? = some (n, task)) {isExempt : Bool}
    (hpoint : u.point = .working n isExempt rest) (hleads : task.LeadsTo rest)
    (hrun : u.execution.isRunning = true) (hlimit : u.budget.limit = t.budget.limit) :
    t.Turns engine u := by
  refine .waits hwork ?_ (not_isArriving ?_) hrun hlimit fun m last hlast => ?_
  · simp [hpoint]
  · simp [hpoint]
  · rw [work?_eq_some hpoint] at hlast
    cases hlast
    exact ⟨rfl, hleads⟩

/-- A walk whose work has failed and may be repeated. -/
theorem turns_of_pausing {task : Task} (hwork : t.work? = some (n, task))
    (hpoint : u.point = .pausing n) (hrun : u.execution.isRunning = true)
    (hlimit : u.budget.limit = t.budget.limit) : t.Turns engine u := by
  refine .waits hwork ?_ (not_isArriving ?_) hrun hlimit fun m last hlast => ?_
  · simp [hpoint]
  · simp [hpoint]
  · simp [work?, hpoint] at hlast

/-- A walk whose work has failed pauses, or it is over. -/
theorem turns_fail (u : Traversal) {task : Task} (hwork : t.work? = some (n, task))
    (hrun : u.execution.isRunning = true) (hlimit : u.budget.limit = t.budget.limit)
    {result : ActionResult} (hresult : task.LeadsTo (.done result))
    (hfail : result.success = false) :
    t.Turns engine (u.fail engine wake n (result.fault n)) := by
  let e := u.execution.recordFault wake.moment n (result.fault n)
  have hrecorded : e.isRunning = true := (Execution.adds_recordError ..).isRunning_eq.trans hrun
  cases hretry : engine.limits.allowsRetry (result.fault n) (e.errorsAt n.id) with
  | true =>
    rw [fail_of_allowsRetry u hretry]
    have hnoted := (e.adds_noteRetry wake.moment n (result.fault n) engine.limits).isRunning_eq
    exact turns_of_pausing hwork rfl (hnoted.trans hrecorded) hlimit
  | false =>
    have hspent : engine.limits.retries < e.errorsAt n.id := by
      have hretryable : (result.fault n).isRetryable = true := rfl
      simpa [Limits.allowsRetry, hretryable] using hretry
    rw [fail_of_not_allowsRetry u hretry]
    exact .breaks (not_isArriving_of_work? hwork) rfl (.result hwork hresult hfail hspent)

variable (hcancelled : wake.cancelled = true)

include hcancelled

/-- A walk takes note of a cancellation before it writes a snapshot. -/
theorem heeds_settle (u : Traversal) (hleft : ¬ t.IsArriving)
    (hrun : u.execution.isRunning = true) (step : Step) :
    t.Turns engine (u.settle wake n step) := by
  refine .heeds hleft ?_ ?_
  · simp [settle, see]
  · rw [settle, hcancelled]
    exact Execution.status_observe_true hrun wake.moment

/-- A walk takes note of a cancellation when the work at a node has come to its result, unless the
node failed. -/
theorem turns_conclude (u : Traversal) {task : Task} (hwork : t.work? = some (n, task))
    (hrun : u.execution.isRunning = true) (hlimit : u.budget.limit = t.budget.limit)
    {result : ActionResult} (hresult : task.LeadsTo (.done result)) :
    t.Turns engine (u.conclude engine f wake n result) := by
  let e := u.execution.take wake.moment n result
  have htaken : e.isRunning = true := (Execution.adds_take ..).isRunning_eq.trans hrun
  have hleft : ¬ t.IsArriving := not_isArriving_of_work? hwork
  unfold conclude
  dsimp only
  split
  next hfail =>
    have hfail : result.success = false := by simpa using hfail
    exact turns_fail { u with execution := e } hwork htaken hlimit hresult hfail
  next =>
    split
    next => exact heeds_settle hcancelled { u with execution := e } hleft htaken .finish
    next =>
      let chosen := (f.onward wake.moment n result.nextNode e).2
      have hchosen : chosen.isRunning = true := (e.adds_onward ..).isRunning_eq.trans htaken
      exact heeds_settle hcancelled { u with execution := chosen } hleft hchosen (.proceed _)

theorem turns_work (u : Traversal) {isExempt : Bool} {task rest : Task}
    (hwork : t.work? = some (n, task)) (hrun : u.execution.isRunning = true)
    (hlimit : u.budget.limit = t.budget.limit) (hleads : task.LeadsTo rest) :
    t.Turns engine (u.work engine f wake n isExempt rest) := by
  cases rest with
  | done result => exact turns_conclude hcancelled u hwork hrun hlimit hleads
  | sleep => exact turns_of_working hwork rfl hleads hrun hlimit
  | ask => exact turns_of_working hwork rfl hleads hrun hlimit

theorem turns_advance (u : Traversal) (hrun : u.execution.isRunning = true)
    (harriving : t.IsArriving ↔ u.pending = []) : t.Turns engine (u.advance engine f wake) := by
  unfold advance
  split
  next hempty => exact .arrives (harriving.mpr hempty) rfl (Execution.status_complete hrun)
  next n rest hpending =>
    dsimp only
    rw [hcancelled, Execution.isRunning_observe_true]
    refine .heeds ?_ nofun (Execution.status_observe_true hrun _)
    rw [harriving, hpending]
    exact List.cons_ne_nil _ _

/-- A walk that is cancelled before it sets out is over at once. -/
theorem start_of_cancelled (hrun : t.execution.isRunning = true) (n : Node) (budget : Budget) :
    (t.start engine f wake n budget).point = .ended (.ok ()) ∧
      (t.start engine f wake n budget).execution.status = .cancelled := by
  unfold start advance
  dsimp only
  rw [hcancelled, Execution.isRunning_observe_true]
  exact ⟨rfl, Execution.status_observe_true hrun wake.moment⟩

theorem turns_proceed (hrun : t.execution.isRunning = true) {step : Step}
    (hp : t.point = .saving n step) : t.Turns engine (t.proceed engine f wake n step) := by
  have harriving := isArriving_iff_of_saving hp
  cases step with
  | proceed next =>
    have hempty : t.IsArriving ↔ next ++ t.pending = [] := by simp [harriving]
    exact turns_advance hcancelled _ hrun hempty
  | finish =>
    have hend : t.IsArriving := harriving.mpr (by simp)
    refine .arrives hend rfl fun moment => ?_
    have hover := t.execution.isRunning_stop wake.moment n
    show ((t.execution.stop wake.moment n).complete moment).status = .completed
    rw [Execution.complete_of_not_isRunning hover, Execution.stop, if_pos hrun,
      Execution.move_of_isRunning hrun rfl]
    rfl
  | halt =>
    have hend : t.IsArriving := harriving.mpr (by simp)
    exact .arrives hend rfl (Execution.status_complete hrun)

/-- **A running walk that hears that it is cancelled** comes to its end if it had nothing left to
try, or it takes note, or a fault of the wait that was under way ends it, or it has to wait on. -/
theorem turns_resume (hrun : t.execution.isRunning = true)
    (hopen : ∀ outcome, t.point ≠ .ended outcome) :
    t.Turns engine (t.resume engine f wake) := by
  unfold resume
  split
  next outcome hp => exact absurd hp (hopen outcome)
  next n step hp => exact turns_proceed hcancelled hrun hp
  next n isExempt task hp =>
    have hleft : ¬ t.IsArriving := not_isArriving (by simp [hp])
    split
    next =>
      rw [fail_of_not_isRetryable t rfl]
      exact .breaks hleft rfl (.timeout (.inl (by rw [hp]; rfl)))
    next budget hcharge =>
      have hwork : t.work? = some (n, task) := work?_eq_some hp
      exact turns_work hcancelled { t with budget } hwork hrun (limit_of_charge hcharge)
        (task.leadsTo_continueTask wake)
  next n hp =>
    have hleft : ¬ t.IsArriving := not_isArriving (by simp [hp])
    split
    next => exact .breaks hleft rfl (.timeout (.inr (by rw [hp]; rfl)))
    next budget _ =>
      have hover := t.execution.isRunning_observe_true wake.moment
      dsimp only
      rw [hcancelled, hover]
      refine .heeds hleft nofun ?_
      -- The cancellation is noticed already when the snapshot is written.
      rw [settle]
      dsimp only [see]
      rw [Execution.observe_of_not_isRunning hover]
      exact Execution.status_observe_true hrun _

end

end Traversal

end Outreach
