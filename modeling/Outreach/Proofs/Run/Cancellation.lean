import Outreach.Proofs.Run.Retries
import Outreach.Proofs.Walk.Cancellation

/-!
# How a cancelled run ends

A cancelled run tries nothing more (`Run.fadesInto_of_subsides`), so it returns
(`Run.ComesFrom.returns_of_cancelled`). In the end it is cancelled, unless it had nothing left to try
when it was cancelled, for then it completes, or a fault of the wait that was under way ended it
(`Run.ComesFrom.resolves`).
-/

namespace Outreach

open Relation (ReflTransGen)

namespace Run

/-- From one wait to the next of a run that is cancelled. -/
def Subsides (engine : Engine) (r r' : Run) : Prop :=
  ∃ wake manager, r.isCancelled manager = true ∧ r' = (r.resume engine wake manager).1

variable {engine : Engine} {r r' : Run} {moment : Moment} {call : Call}

/-! ## What is left to a cancelled run -/

theorem fadesInto_close (r : Run) (moment : Moment) (outcome : Except EngineFault Unit)
    (manager : Manager) : r.walk.FadesInto (r.close moment outcome manager).1.walk :=
  .of_same (r.tried_close moment outcome manager) (r.execution.vars_settle moment outcome) rfl

theorem fadesInto_follow (r : Run) (moment : Moment) (walk : Traversal) (manager : Manager) :
    walk.FadesInto (r.follow moment walk manager).1.walk := by
  unfold follow
  dsimp only
  split
  next => exact fadesInto_close { r with phase := .walking, walk } ..
  next => exact .refl walk

theorem Subsides.fadesInto (h : r.Subsides engine r') : r.walk.FadesInto r'.walk := by
  obtain ⟨wake, manager, hcancelled, rfl⟩ := h
  have hears : (r.hears wake manager).cancelled = true := hcancelled
  unfold Run.resume
  dsimp only
  split
  next =>
    split
    next => exact fadesInto_close ..
    next n _ =>
      exact (Traversal.fadesInto_start hears r.walk n _).trans (fadesInto_follow ..)
  next => exact (Traversal.fadesInto_resume hears r.walk).trans (fadesInto_follow ..)
  next => exact .refl r.walk
  next => exact .refl r.walk

/-- **A cancelled run tries nothing more**, and the result of the work at a node that was under way
is the last to change the variables. -/
theorem fadesInto_of_subsides (h : ReflTransGen (Subsides engine) r r') :
    r.walk.FadesInto r'.walk := by
  induction h with
  | refl => exact .refl r.walk
  | tail _ hlast ih => exact ih.trans hlast.fadesInto

theorem Subsides.comesFrom (h : r.Subsides engine r') (hr : r.ComesFrom engine moment call) :
    r'.ComesFrom engine moment call := by
  obtain ⟨wake, manager, -, rfl⟩ := h
  exact hr.resume wake manager

theorem ComesFrom.subsides (hr : r.ComesFrom engine moment call)
    (h : ReflTransGen (Subsides engine) r r') : r'.ComesFrom engine moment call := by
  induction h with
  | refl => exact hr
  | tail _ hlast ih => exact hlast.comesFrom ih

theorem token_of_subsides (h : ReflTransGen (Subsides engine) r r') : r'.token = r.token := by
  induction h with
  | refl => rfl
  | tail _ hlast ih =>
    obtain ⟨wake, manager, -, rfl⟩ := hlast
    exact (token_resume ..).trans ih

theorem subsides_after {course : Course} (h : ∀ wait, r.isCancelled (course wait).2 = true)
    (count : Nat) : ReflTransGen (Subsides engine) r (r.after engine course count) := by
  induction count with
  | zero => exact .refl
  | succ count ih =>
    refine ih.tail ⟨_, _, ?_, rfl⟩
    rw [isCancelled, token_of_subsides ih]
    exact h count

/-- **A cancelled run returns**, whatever its executors are. -/
theorem ComesFrom.returns_of_cancelled (hr : r.ComesFrom engine moment call) {course : Course}
    (h : ∀ wait, r.isCancelled (course wait).2 = true) : r.Returns engine course := by
  refine hr.returns ⟨r.attempts, fun count => ?_⟩
  have htried : (r.after engine course count).tried = r.tried :=
    (fadesInto_of_subsides (subsides_after h count)).tried_eq
  rw [← length_tried, ← length_tried, htried]

/-! ## How it ends -/

/-- A run with nothing left to try. -/
def IsArriving (r : Run) : Prop :=
  r.phase = .walking ∧ r.walk.IsArriving

/-- How a cancelled run may fail still: there is no entry to set out from, or by its walk. -/
inductive BreaksBy (engine : Engine) (r : Run) (last : Execution) : EngineFault → Prop
  | noEntry (hphase : r.phase = .opening) (hentry : r.funnel.entry? = none) :
    BreaksBy engine r last (.noEntry r.funnel.id)
  | walk {fault : EngineFault} (hphase : r.phase = .walking)
      (h : r.walk.BreaksBy engine last fault) : BreaksBy engine r last fault

/-- What becomes of a run that is running when it hears that it is cancelled. -/
inductive Turns (engine : Engine) (r r' : Run) : Prop
  | arrives (h : r.IsArriving) (hstatus : r'.execution.status = .completed)
  | heeds (h : ¬ r.IsArriving) (hstatus : r'.execution.status = .cancelled)
  | breaks {fault : EngineFault} (h : ¬ r.IsArriving) (hclosed : r'.IsClosed)
      (houtcome : r'.outcome = .error fault) (hfault : r.BreaksBy engine r'.execution fault)
  | waits (h : ¬ r.IsArriving) (hunder : r'.IsUnderWay) (hrun : r'.execution.isRunning = true)
      (hleft : ¬ r'.IsArriving)
      (hfault : ∀ last fault, r'.BreaksBy engine last fault → r.BreaksBy engine last fault)

/-- How a run has ended that was cancelled while it was running. -/
structure Resolves (engine : Engine) (r r' : Run) : Prop where
  completed : r'.execution.status = .completed ↔ r.IsArriving
  failed : r'.execution.status = .failed ↔
    ∃ fault, r'.outcome = .error fault ∧ r.BreaksBy engine r'.execution fault
  cancelled : r'.execution.status = .cancelled ↔
    ¬ r.IsArriving ∧ ∀ fault, r'.outcome ≠ .error fault

variable {walk : Traversal}

/-- A run whose walk took note of a cancellation is cancelled. -/
theorem status_follow (r : Run) (hpoint : ∀ fault, walk.point ≠ .ended (.error fault))
    (hstatus : walk.execution.status = .cancelled) (moment : Moment) (manager : Manager) :
    (r.follow moment walk manager).1.execution.status = .cancelled := by
  have hover : walk.execution.isRunning = false := by simp [Execution.isRunning, hstatus]
  cases hended : walk.point with
  | ended outcome =>
    cases outcome with
    | error fault => exact absurd hended (hpoint fault)
    | ok =>
      rw [follow_of_ended r hended]
      show (walk.execution.complete moment).status = .cancelled
      rw [Execution.complete_of_not_isRunning hover, hstatus]
  | saving | working | pausing =>
    rw [follow_of_ne_ended r (by simp [hended])]
    exact hstatus

/-- A run that walks turns as its walk does. -/
theorem turns_follow (hphase : r.phase = .walking) (htoken : r.token.isSome = true)
    (hentry : r.funnel.entry?.isSome = true) (h : r.walk.Turns engine walk) (moment : Moment)
    (manager : Manager) : r.Turns engine (r.follow moment walk manager).1 := by
  cases h with
  | arrives harriving hpoint hstatus =>
    rw [follow_of_ended r hpoint]
    exact .arrives ⟨hphase, harriving⟩ (hstatus moment)
  | heeds hleft hpoint hstatus =>
    exact .heeds (fun harriving => hleft harriving.2) (r.status_follow hpoint hstatus moment manager)
  | @breaks fault hleft hpoint hfault =>
    have hbreaks : r.walk.BreaksBy engine (r.follow moment walk manager).1.execution fault :=
      hfault.congr fun id => (errorsAt_follow r moment walk manager id).symm
    rw [follow_of_ended r hpoint] at hbreaks ⊢
    let ended : Run := { r with phase := .walking, walk }
    have houtcome : ended.outcome = .error fault :=
      outcome_of_ended (r := ended) htoken hentry hpoint
    exact .breaks (fun harriving => hleft harriving.2) (.inl rfl)
      ((ended.outcome_close moment _ manager).trans houtcome) (.walk hphase hbreaks)
  | waits hwork hopen hleft hrun hlimit hrest =>
    rw [follow_of_ne_ended r hopen]
    refine .waits (fun harriving => Traversal.not_isArriving_of_work? hwork harriving.2) (.inr rfl)
      hrun (fun harriving => hleft harriving.2) fun last fault hfault => ?_
    cases hfault with
    | noEntry hopening => cases hopening
    | walk _ hfault => exact .walk hphase (hfault.of_rest hwork hlimit hrest)

/-- **A running run that hears that it is cancelled** comes to its end if it had nothing left to try,
or it takes note, or a fault of the wait that was under way ends it, or it has to wait on. -/
theorem ComesFrom.turns (hr : r.ComesFrom engine moment call) (hunder : r.IsUnderWay)
    (hrun : r.execution.isRunning = true) (h : r.Subsides engine r') : r.Turns engine r' := by
  obtain ⟨wake, manager, hcancelled, rfl⟩ := h
  have hears : (r.hears wake manager).cancelled = true := hcancelled
  have hbelongs := hr.belongsTo (WorksWith.trivial engine call.funnel) rfl
  have htoken := hbelongs.token hunder
  rcases hunder with hphase | hphase
  · have hleft : ¬ r.IsArriving := fun harriving => by simp [IsArriving, hphase] at harriving
    unfold Run.resume
    rw [hphase]
    dsimp only
    split
    next hentry =>
      obtain ⟨token, htoken⟩ := Option.isSome_iff_exists.mp htoken
      refine .breaks hleft (.inl rfl) ?_ (.noEntry hphase hentry)
      rw [outcome_close, outcome, htoken, hentry]
    next n _ =>
      have hstart : (r.walk.start engine r.funnel (r.hears wake manager) n
          (.limited engine.limits.timeout)).point = .ended (.ok ()) ∧ _ :=
        Traversal.start_of_cancelled hears hrun n _
      obtain ⟨hpoint, hstatus⟩ := hstart
      refine .heeds hleft (r.status_follow (by simp [hpoint]) hstatus wake.moment manager)
  · rw [hbelongs.resume_of_walking hphase]
    have hentry : r.funnel.entry?.isSome = true := hbelongs.funnel ▸ hbelongs.entry hphase
    exact turns_follow hphase htoken hentry
      (Traversal.turns_resume hears hrun (hbelongs.point hphase).2) wake.moment manager

/-! ## When it has ended -/

/-- Nothing happens to an execution that has ended. -/
theorem ComesFrom.execution_of_subsides (hr : r.ComesFrom engine moment call)
    (hover : r.execution.status.isTerminal = true) (h : ReflTransGen (Subsides engine) r r') :
    r'.execution = r.execution := by
  induction h with
  | refl => rfl
  | tail hsubsides hlast ih =>
    obtain ⟨wake, manager, -, rfl⟩ := hlast
    rw [← ih] at hover ⊢
    exact ((hr.subsides hsubsides).growsInto wake manager).frozen hover

/-- How a run ended is not changed any more. -/
theorem outcome_of_subsides (hclosed : r.IsClosed) (h : ReflTransGen (Subsides engine) r r') :
    r'.IsClosed ∧ r'.outcome = r.outcome := by
  induction h with
  | refl => exact ⟨hclosed, rfl⟩
  | tail _ hlast ih =>
    obtain ⟨wake, manager, -, rfl⟩ := hlast
    obtain ⟨hclosed, houtcome⟩ := ih
    refine ⟨hclosed.resume engine wake manager, houtcome ▸ ?_⟩
    unfold Run.resume
    rcases hclosed with hphase | hphase
    · rw [hphase]
      rfl
    · rw [hphase]

/-- It is enough to know of a run that has ended when it completed and by which faults it failed. -/
theorem Resolves.of_endsBy (hends : r'.execution.EndsBy r'.outcome)
    (hcompleted : r'.execution.status = .completed ↔ r.IsArriving)
    (hfault : ∀ fault, r'.outcome = .error fault → r.BreaksBy engine r'.execution fault) :
    r.Resolves engine r' := by
  have hfailed : r'.execution.status = .failed ↔
      ∃ fault, r'.outcome = .error fault ∧ r.BreaksBy engine r'.execution fault := by
    rw [hends.failed_iff_fault]
    exact exists_congr fun fault => ⟨fun h => ⟨h, hfault fault h⟩, And.left⟩
  refine ⟨hcompleted, hfailed, ?_⟩
  rw [← hcompleted, ← not_exists, ← hends.failed_iff_fault]
  have hterminal := hends.terminal
  cases hstatus : r'.execution.status <;> simp_all [Status.isTerminal]

/-- **How a run has ended that was cancelled while it was running.** It is completed exactly if it had
nothing left to try, failed exactly if a fault ended it that could come before the cancellation was
noticed, and cancelled otherwise. -/
theorem ComesFrom.resolves (hr : r.ComesFrom engine moment call) (hunder : r.IsUnderWay)
    (hrun : r.execution.isRunning = true) (h : ReflTransGen (Subsides engine) r r')
    (hclosed : r'.IsClosed) : r.Resolves engine r' := by
  have hends : r'.execution.EndsBy r'.outcome := (hr.subsides h).endsBy hclosed
  suffices hway : (r'.execution.status = .completed ↔ r.IsArriving) ∧
      ∀ fault, r'.outcome = .error fault → r.BreaksBy engine r'.execution fault from
    .of_endsBy hends hway.1 hway.2
  have hfault (hstatus : r'.execution.status ≠ .failed) (fault : EngineFault) :
      r'.outcome ≠ .error fault :=
    fun houtcome => hstatus (hends.failed_iff_fault.mpr ⟨fault, houtcome⟩)
  induction h using ReflTransGen.head_induction_on with
  | refl => exact absurd hunder hclosed.not_isUnderWay
  | @head r next hfirst hrest ih =>
    have hnext := hfirst.comesFrom hr
    cases hr.turns hunder hrun hfirst with
    | arrives harriving hstatus =>
      have hsame : r'.execution.status = .completed := by
        rw [hnext.execution_of_subsides (by rw [hstatus]; rfl) hrest, hstatus]
      exact ⟨iff_of_true hsame harriving, fun fault houtcome =>
        absurd houtcome (hfault (by simp [hsame]) fault)⟩
    | heeds hleft hstatus =>
      have hsame : r'.execution.status = .cancelled := by
        rw [hnext.execution_of_subsides (by rw [hstatus]; rfl) hrest, hstatus]
      exact ⟨iff_of_false (by simp [hsame]) hleft, fun fault houtcome =>
        absurd houtcome (hfault (by simp [hsame]) fault)⟩
    | @breaks fault hleft hover houtcome hbreaks =>
      obtain ⟨-, hkept⟩ := outcome_of_subsides hover hrest
      have hterminal := (hnext.endsBy hover).terminal
      have hfailed := hends.failed_iff_fault.mpr ⟨fault, hkept.trans houtcome⟩
      refine ⟨iff_of_false (by simp [hfailed]) hleft, fun other hother => ?_⟩
      obtain rfl : other = fault := by simpa [hkept.trans houtcome] using hother.symm
      rwa [hnext.execution_of_subsides hterminal hrest]
    | waits hleft hunder' hrun' hleft' hbreaks =>
      obtain ⟨hcompleted, hfaults⟩ := ih hnext hunder' hrun'
      exact ⟨hcompleted.trans (iff_of_false hleft' hleft),
        fun fault houtcome => hbreaks _ fault (hfaults fault houtcome)⟩

end Run

end Outreach
