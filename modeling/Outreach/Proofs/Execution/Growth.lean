import Outreach.Engine.Run

/-!
# How an execution grows

While a run goes on, its execution is only added to: identity, start and metadata stay, logs and
errors get longer at their ends, no variable is lost, and the status moves forward. What has ended
is frozen. `Execution.GrowsInto` says all of this of an earlier and a later state of an execution.
-/

namespace Outreach

namespace Members

variable {α : Type} {members : Members α} {name : String}

theorem has_insert (h : members.has name = true) (other : String) (value : α) :
    Members.has (members.insert other value) name = true := by
  unfold has at h ⊢
  rw [get?_insert]
  split
  next => rfl
  next => exact h

/-- No name is lost when more is put on top. -/
theorem has_merge (h : members.has name = true) (added : Members α) :
    Members.has (members.merge added) name = true := by
  induction added generalizing members with
  | nil => exact h
  | cons entry rest ih => exact ih (has_insert h entry.1 entry.2)

end Members

namespace Execution

/-- What a change leaves of an execution: everything but more at the ends of the lists, other values
of variables, and where it stands. -/
structure Keeps (e e' : Execution) : Prop where
  id : e'.id = e.id
  funnelId : e'.funnelId = e.funnelId
  triggerId : e'.triggerId = e.triggerId
  startedAt : e'.startedAt = e.startedAt
  metadata : e'.metadata = e.metadata
  logs : e.logs <+: e'.logs
  errors : e.errors <+: e'.errors
  vars : ∀ name, Members.has e.vars name = true → Members.has e'.vars name = true

/-- A change that leaves the status alone as well. -/
structure Adds (e e' : Execution) : Prop extends e.Keeps e' where
  status : e'.status = e.status
  endedAt : e'.endedAt = e.endedAt

/-- An execution and a later state of it. -/
structure GrowsInto (e e' : Execution) : Prop extends e.Keeps e' where
  status : e'.status = e.status ∨ e.status.rank < e'.status.rank
  frozen : e.status.isTerminal = true → e' = e

variable {e e' e'' : Execution}

namespace Keeps

theorem refl (e : Execution) : e.Keeps e :=
  ⟨rfl, rfl, rfl, rfl, rfl, List.prefix_rfl, List.prefix_rfl, fun _ h => h⟩

theorem trans (h : e.Keeps e') (h' : e'.Keeps e'') : e.Keeps e'' where
  id := h'.id.trans h.id
  funnelId := h'.funnelId.trans h.funnelId
  triggerId := h'.triggerId.trans h.triggerId
  startedAt := h'.startedAt.trans h.startedAt
  metadata := h'.metadata.trans h.metadata
  logs := h.logs.trans h'.logs
  errors := h.errors.trans h'.errors
  vars name hname := h'.vars name (h.vars name hname)

end Keeps

namespace Adds

theorem refl (e : Execution) : e.Adds e :=
  ⟨.refl e, rfl, rfl⟩

theorem trans (h : e.Adds e') (h' : e'.Adds e'') : e.Adds e'' :=
  ⟨h.toKeeps.trans h'.toKeeps, h'.status.trans h.status, h'.endedAt.trans h.endedAt⟩

theorem isRunning_eq (h : e.Adds e') : e'.isRunning = e.isRunning := by
  rw [isRunning, isRunning, h.status]

end Adds

theorem status_eq_running (h : e.isRunning = true) : e.status = .running := by
  simpa [isRunning] using h

theorem isRunning_of_status (h : e.status = .running) : e.isRunning = true := by
  simp [isRunning, h]

namespace GrowsInto

theorem refl (e : Execution) : e.GrowsInto e :=
  ⟨.refl e, .inl rfl, fun _ => rfl⟩

/-- What runs may change in every way that a change may, but does not fall back. -/
theorem of_isRunning (h : e.Keeps e') (hrun : e.isRunning = true) (hs : e'.status ≠ .pending) :
    e.GrowsInto e' := by
  have hstatus := status_eq_running hrun
  refine ⟨h, ?_, fun hover => ?_⟩
  · rw [hstatus]
    cases h' : e'.status with
    | pending => exact absurd h' hs
    | running => exact .inl rfl
    | completed | failed | cancelled => exact .inr (Nat.lt_succ_self 1)
  · rw [hstatus] at hover
    cases hover

theorem of_adds (h : e.Adds e') (hrun : e.isRunning = true) : e.GrowsInto e' := by
  refine of_isRunning h.toKeeps hrun ?_
  rw [h.status, status_eq_running hrun]
  exact Status.noConfusion

theorem trans (h : e.GrowsInto e') (h' : e'.GrowsInto e'') : e.GrowsInto e'' := by
  refine ⟨h.toKeeps.trans h'.toKeeps, ?_, fun hover => ?_⟩
  · rcases h.status with hs | hs <;> rcases h'.status with hs' | hs'
    · exact .inl (hs'.trans hs)
    · exact .inr (hs ▸ hs')
    · exact .inr (hs' ▸ hs)
    · exact .inr (Nat.lt_trans hs hs')
  · have he := h.frozen hover
    subst he
    exact h'.frozen hover

end GrowsInto

/-! ## The changes of an execution -/

section

variable (e : Execution) (moment : Moment) (n : Node) (fault : EngineFault)

theorem adds_log (level : Level) (node : Option String) (message : String) (data : Option Json) :
    e.Adds (e.log moment level node message data) :=
  ⟨{ Keeps.refl e with logs := List.prefix_append .. }, rfl, rfl⟩

theorem adds_recordError (node : Option String) (message : String) (stack : Option String)
    (isRetryable : Bool) : e.Adds (e.recordError moment node message stack isRetryable) :=
  ⟨{ Keeps.refl e with errors := List.prefix_append .. }, rfl, rfl⟩

theorem adds_mergeVariables (added : Variables) : e.Adds (e.mergeVariables added) :=
  ⟨{ Keeps.refl e with vars := fun _ h => Members.has_merge h added }, rfl, rfl⟩

theorem adds_enter : e.Adds (e.enter moment n) :=
  have hnode : e.Adds { e with currentNode := some n.id } := ⟨{ Keeps.refl e with }, rfl, rfl⟩
  hnode.trans (adds_log _ _ _ _ _ _)

theorem adds_take (result : ActionResult) : e.Adds (e.take moment n result) :=
  (e.adds_mergeVariables _).trans (adds_log _ _ _ _ _ _)

theorem adds_noteRetry (limits : Limits) : e.Adds (e.noteRetry moment limits n fault) :=
  adds_log ..

theorem adds_giveUp : e.Adds (e.giveUp moment n fault) :=
  adds_log ..

theorem adds_check (c : Condition) (node : Option String) : e.Adds (e.check moment c node).2 := by
  unfold check
  split
  next => exact .refl e
  next => exact adds_log ..

theorem adds_follows (source : String) (c : Connection) :
    e.Adds (Funnel.follows moment source e c).2 := by
  unfold Funnel.follows
  cases c.condition with
  | none => exact .refl e
  | some condition =>
    dsimp only
    have hcheck := e.adds_check moment condition (some source)
    split
    next e' he => rwa [he] at hcheck
    next e' he =>
      rw [he] at hcheck
      exact hcheck.trans (adds_log ..)

theorem adds_target (f : Funnel) (source id : String) :
    e.Adds (f.target moment source e id).2 := by
  unfold Funnel.target
  split
  next => exact .refl e
  next => exact adds_log ..

theorem adds_targets (f : Funnel) (source : String) (connections : List Connection) :
    e.Adds (f.targets moment source connections e).2 := by
  induction connections generalizing e with
  | nil => exact .refl e
  | cons c rest ih =>
    have hfollows := e.adds_follows moment source c
    unfold Funnel.targets
    split
    next e' he =>
      rw [he] at hfollows
      exact (hfollows.trans (e'.adds_target moment f source c.target)).trans (ih _)
    next e' he =>
      rw [he] at hfollows
      exact hfollows.trans (ih e')

theorem adds_onward (f : Funnel) (named : Option String) :
    e.Adds (f.onward moment n named e).2 := by
  cases named with
  | none => exact e.adds_targets moment f n.id n.connections
  | some id => exact e.adds_target moment f n.id id

/-! ## The changes of a status -/

theorem keeps_move (next : Status) : e.Keeps (e.move moment next) := by
  unfold move move?
  cases e.status.canMoveTo next with
  | true => exact { Keeps.refl e with }
  | false => exact .refl e

theorem keeps_observe (cancelled : Bool) : e.Keeps (e.observe moment cancelled) := by
  unfold observe
  split
  next => exact (e.keeps_move moment _).trans (adds_log ..).toKeeps
  next => exact .refl e

theorem keeps_stop : e.Keeps (e.stop moment n) := by
  unfold stop
  split
  next => exact (e.keeps_move moment _).trans (adds_log ..).toKeeps
  next => exact .refl e

theorem keeps_settle (outcome : Except EngineFault Unit) : e.Keeps (e.settle moment outcome) := by
  cases outcome with
  | ok =>
    rw [settle, complete]
    split
    next => exact (e.keeps_move moment _).trans (adds_log ..).toKeeps
    next => exact .refl e
  | error fault =>
    exact ((e.keeps_move moment _).trans (adds_recordError ..).toKeeps).trans (adds_log ..).toKeeps

end

/-- What runs can end, and notes when. -/
theorem move_of_isRunning (hrun : e.isRunning = true) {next : Status}
    (hnext : next.isTerminal = true) (moment : Moment) :
    e.move moment next = { e with status := next, endedAt := some moment.now } := by
  have hmove : e.status.canMoveTo next = true := by
    rw [status_eq_running hrun]
    exact hnext
  rw [move, move?, if_pos hmove, if_pos hnext]

/-- An execution that a node stopped is not running any more. -/
theorem isRunning_stop (e : Execution) (moment : Moment) (node : Node) :
    (e.stop moment node).isRunning = false := by
  unfold stop
  split
  next h =>
    rw [move_of_isRunning h rfl]
    rfl
  next h => simpa using h

theorem observe_of_not_isRunning (h : e.isRunning = false) (moment : Moment) (cancelled : Bool) :
    e.observe moment cancelled = e := by
  simp [observe, h]

theorem stop_of_not_isRunning (h : e.isRunning = false) (moment : Moment) (node : Node) :
    e.stop moment node = e := by
  simp [stop, h]

theorem complete_of_not_isRunning (h : e.isRunning = false) (moment : Moment) :
    e.complete moment = e := by
  simp [complete, h]

/-! ## Growth -/

variable (e : Execution) (moment : Moment)

theorem growsInto_observe (cancelled : Bool) : e.GrowsInto (e.observe moment cancelled) := by
  cases hrun : e.isRunning with
  | false =>
    rw [observe_of_not_isRunning hrun]
    exact .refl e
  | true =>
    refine .of_isRunning (e.keeps_observe moment cancelled) hrun ?_
    unfold observe
    split
    next =>
      rw [move_of_isRunning hrun rfl]
      exact Status.noConfusion
    next =>
      rw [status_eq_running hrun]
      exact Status.noConfusion

theorem growsInto_stop (n : Node) : e.GrowsInto (e.stop moment n) := by
  cases hrun : e.isRunning with
  | false =>
    rw [stop_of_not_isRunning hrun]
    exact .refl e
  | true =>
    refine .of_isRunning (e.keeps_stop moment n) hrun ?_
    rw [stop, if_pos hrun, move_of_isRunning hrun rfl]
    exact Status.noConfusion

theorem growsInto_complete : e.GrowsInto (e.settle moment (.ok ())) := by
  cases hrun : e.isRunning with
  | false =>
    rw [settle, complete_of_not_isRunning hrun]
    exact .refl e
  | true =>
    refine .of_isRunning (e.keeps_settle moment (.ok ())) hrun ?_
    rw [settle, complete, if_pos hrun, move_of_isRunning hrun rfl]
    exact Status.noConfusion

variable {e}

/-- An execution that a fault stops is failed, as it says last. -/
theorem abort_of_isRunning (hrun : e.isRunning = true) (fault : EngineFault) :
    (e.abort moment fault).status = .failed ∧
      (e.abort moment fault).endedAt = some moment.now ∧
      ∃ entry, (e.abort moment fault).errors = e.errors ++ [entry] ∧ entry.node = none ∧
        entry.message = fault.message ∧ entry.isRetryable = fault.isRetryable := by
  rw [abort, move_of_isRunning hrun rfl]
  exact ⟨rfl, rfl, _, rfl, rfl, rfl, rfl⟩

theorem growsInto_abort (hrun : e.isRunning = true) (fault : EngineFault) :
    e.GrowsInto (e.settle moment (.error fault)) := by
  refine .of_isRunning (e.keeps_settle moment (.error fault)) hrun ?_
  rw [settle, (abort_of_isRunning moment hrun fault).1]
  exact Status.noConfusion

end Execution

end Outreach
