import Outreach.Engine.Run

/-!
# What changes of an execution leave alone

Errors are recorded by `recordError` and nowhere else, and variables are put in by `mergeVariables`
and nowhere else: to choose the next nodes, and to notice a cancellation or an end, only marks the
status and the log (`Execution.Marks`).
-/

namespace Outreach

namespace Execution

/-! ## Marks -/

/-- A change of the status and of the log, and of nothing else. -/
def Marks (e e' : Execution) : Prop :=
  ∃ status endedAt logs, e' = { e with status, endedAt, logs }

namespace Marks

variable {e e' e'' : Execution}

theorem refl (e : Execution) : e.Marks e :=
  ⟨_, _, _, rfl⟩

theorem trans (h : e.Marks e') (h' : e'.Marks e'') : e.Marks e'' := by
  obtain ⟨_, _, _, rfl⟩ := h
  obtain ⟨_, _, _, rfl⟩ := h'
  exact ⟨_, _, _, rfl⟩

theorem errors_eq (h : e.Marks e') : e'.errors = e.errors := by
  obtain ⟨_, _, _, rfl⟩ := h
  rfl

theorem vars_eq (h : e.Marks e') : e'.vars = e.vars := by
  obtain ⟨_, _, _, rfl⟩ := h
  rfl

end Marks

variable (e : Execution) (moment : Moment) (n : Node) (fault : EngineFault)

theorem marks_log (level : Level) (node : Option String) (message : String) (data : Option Json) :
    e.Marks (e.log moment level node message data) :=
  ⟨_, _, _, rfl⟩

theorem marks_move (next : Status) : e.Marks (e.move moment next) := by
  unfold move move?
  cases e.status.canMoveTo next with
  | true => exact ⟨_, _, _, rfl⟩
  | false => exact .refl e

theorem marks_observe (cancelled : Bool) : e.Marks (e.observe moment cancelled) := by
  unfold observe
  split
  next => exact (e.marks_move moment _).trans (marks_log ..)
  next => exact .refl e

/-- Where no cancellation is seen, none is noted. -/
theorem observe_false : e.observe moment false = e :=
  if_neg Bool.false_ne_true

theorem marks_stop : e.Marks (e.stop moment n) := by
  unfold stop
  split
  next => exact (e.marks_move moment _).trans (marks_log ..)
  next => exact .refl e

theorem marks_complete : e.Marks (e.complete moment) := by
  unfold complete
  split
  next => exact (e.marks_move moment _).trans (marks_log ..)
  next => exact .refl e

section

variable (f : Funnel)

theorem marks_follows (source : String) (c : Connection) :
    e.Marks (Funnel.follows moment source e c).2 := by
  unfold Funnel.follows
  cases c.condition with
  | none => exact .refl e
  | some condition =>
    dsimp only
    unfold check
    cases condition.evaluate e.vars with
    | ok answer =>
      cases answer with
      | true => exact .refl e
      | false => exact marks_log ..
    | error fault => exact (marks_log ..).trans (marks_log ..)

theorem marks_target (source id : String) : e.Marks (f.target moment source e id).2 := by
  unfold Funnel.target
  split
  next => exact .refl e
  next => exact marks_log ..

theorem marks_targets (source : String) (connections : List Connection) :
    e.Marks (f.targets moment source connections e).2 := by
  induction connections generalizing e with
  | nil => exact .refl e
  | cons c rest ih =>
    have hfollows := e.marks_follows moment source c
    unfold Funnel.targets
    split
    next e' he =>
      rw [he] at hfollows
      exact (hfollows.trans (e'.marks_target moment f source c.target)).trans (ih _)
    next e' he =>
      rw [he] at hfollows
      exact hfollows.trans (ih e')

/-- The choice of the next nodes is only noted in the log. -/
theorem marks_onward (named : Option String) : e.Marks (f.onward moment n named e).2 := by
  cases named with
  | none => exact e.marks_targets moment f n.id n.connections
  | some id => exact e.marks_target moment f n.id id

end

/-! ## Variables -/

theorem vars_settle (outcome : Except EngineFault Unit) :
    (e.settle moment outcome).vars = e.vars := by
  cases outcome with
  | ok => exact (e.marks_complete moment).vars_eq
  | error fault => exact (e.marks_move moment .failed).vars_eq

/-! ## Errors -/

@[simp] theorem errors_move (next : Status) : (e.move moment next).errors = e.errors :=
  (e.marks_move moment next).errors_eq

@[simp] theorem errors_observe (cancelled : Bool) :
    (e.observe moment cancelled).errors = e.errors :=
  (e.marks_observe moment cancelled).errors_eq

@[simp] theorem errors_stop : (e.stop moment n).errors = e.errors :=
  (e.marks_stop moment n).errors_eq

@[simp] theorem errors_onward (f : Funnel) (named : Option String) :
    (f.onward moment n named e).2.errors = e.errors :=
  (e.marks_onward moment n f named).errors_eq

@[simp] theorem errors_enter : (e.enter moment n).errors = e.errors := rfl

@[simp] theorem errors_take (result : ActionResult) :
    (e.take moment n result).errors = e.errors := rfl

@[simp] theorem errors_noteRetry (limits : Limits) :
    (e.noteRetry moment limits n fault).errors = e.errors := rfl

@[simp] theorem errors_giveUp : (e.giveUp moment n fault).errors = e.errors := rfl

theorem errorsAt_congr {e e' : Execution} (h : e.errors = e'.errors) (id : String) :
    e.errorsAt id = e'.errorsAt id := by
  rw [errorsAt, errorsAt, h]

/-- An error that is recorded at a node counts there and nowhere else. -/
theorem errorsAt_recordError_some (id other message : String) (stack : Option String)
    (isRetryable : Bool) :
    (e.recordError moment (some id) message stack isRetryable).errorsAt other =
      e.errorsAt other + if id = other then 1 else 0 := by
  simp [errorsAt, recordError, List.countP_append, List.countP_singleton]

theorem errorsAt_recordError (id message : String) (stack : Option String) (isRetryable : Bool) :
    (e.recordError moment (some id) message stack isRetryable).errorsAt id = e.errorsAt id + 1 := by
  rw [errorsAt_recordError_some, if_pos rfl]

/-- Settling an execution adds no error at a node. -/
theorem errors_settle (outcome : Except EngineFault Unit) :
    ∃ added, (e.settle moment outcome).errors = e.errors ++ added ∧
      ∀ entry ∈ added, entry.node = none := by
  cases outcome with
  | ok =>
    refine ⟨[], ?_, nofun⟩
    rw [List.append_nil]
    exact (e.marks_complete moment).errors_eq
  | error fault =>
    rw [settle, abort, log, recordError, errors_move]
    exact ⟨_, rfl, List.forall_mem_singleton.mpr rfl⟩

theorem errorsAt_settle (outcome : Except EngineFault Unit) (id : String) :
    (e.settle moment outcome).errorsAt id = e.errorsAt id := by
  obtain ⟨added, herrors, hnone⟩ := e.errors_settle moment outcome
  have hadded : added.countP (fun entry => entry.node == some id) = 0 :=
    List.countP_eq_zero.mpr fun entry hentry => by simp [hnone entry hentry]
  rw [errorsAt, herrors, List.countP_append, hadded, Nat.add_zero, errorsAt]

end Execution

end Outreach
