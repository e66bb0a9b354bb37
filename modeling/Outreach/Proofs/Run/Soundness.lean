import Outreach.Proofs.Execution.Frame
import Outreach.Proofs.Execution.Notes
import Outreach.Proofs.Run.Invariant

/-!
# Accepted funnels run soundly

What an examination rules out does not happen in a run: a missing entry, a node whose type has no
executor, settings that cannot be read, and conditions that cannot be evaluated. An accepted funnel
may still fail, by the services, by the time it takes or because a node failed for a reason that
lies in its variables (`Run.accepted_runs_soundly`).
-/

namespace Outreach

/-- A fault that an examination is there to rule out. -/
def EngineFault.IsFlaw : EngineFault → Prop
  | .noEntry _ | .noExecutor _ _ => True
  | .nodeFailed _ reason => SettingsFault.start.toList <+: reason.toList
  | .timeout _ | .alreadyActive _ => False

/-- A fault that may befall a node. -/
def EngineFault.Concerns (id : String) : EngineFault → Prop
  | .nodeFailed node _ => node = id
  | .timeout _ => True
  | .noEntry _ | .noExecutor _ _ | .alreadyActive _ => False

/-- An error that tells of a fault which no examination can rule out. -/
def ErrorEntry.IsUnforeseen (entry : ErrorEntry) : Prop :=
  ∃ fault : EngineFault, ¬ fault.IsFlaw ∧ entry.message = fault.message ∧
    ∀ id, entry.node = some id → fault.Concerns id

/-- How the entry begins that notes that a condition could not be evaluated. -/
def Execution.faultStart : String := "condition evaluation failed"

/-- An execution that tells of nothing which an examination is there to rule out. -/
structure Execution.IsSound (e : Execution) : Prop where
  errors : ∀ entry ∈ e.errors, entry.IsUnforeseen
  logs : ∀ entry ∈ e.logs, ¬ Execution.faultStart.toList <+: entry.message.toList

/-- A sighting that is no attempt at a node without an executor or with settings that cannot be
read, and none at a condition that cannot be evaluated. -/
def Sighting.IsSound (registry : Registry) : Sighting → Prop
  | .attempt n seen => ∃ x, registry.executor? n.type = some x ∧
      ∀ now, (x.perform now n seen).Ends ActionResult.IsPlain ActionResult.IsPlain
  | .snapshot _ => True

/-! ## What happens to an execution -/

namespace Execution.IsSound

variable {e : Execution} {moment : Moment} {n : Node} {fault : EngineFault}

theorem of_noted {e' : Execution} (h : e.IsSound) (herrors : e'.errors = e.errors)
    (hnoted : e'.noted Execution.faultStart = e.noted Execution.faultStart) : e'.IsSound := by
  refine ⟨herrors ▸ h.errors, ?_⟩
  rw [← Execution.noted_eq_nil_iff, hnoted, Execution.noted_eq_nil_iff]
  exact h.logs

theorem recordError (h : e.IsSound) (hf : ¬ fault.IsFlaw) {node : Option String}
    (hn : ∀ id, node = some id → fault.Concerns id) {isRetryable : Bool} :
    (e.recordError moment node fault.message none isRetryable).IsSound := by
  refine ⟨fun entry hentry => ?_, h.logs⟩
  rcases List.mem_append.mp hentry with hentry | hentry
  · exact h.errors entry hentry
  · obtain rfl := List.mem_singleton.mp hentry
    exact ⟨fault, hf, rfl, hn⟩

theorem observe (h : e.IsSound) (cancelled : Bool) : (e.observe moment cancelled).IsSound :=
  h.of_noted (e.errors_observe moment cancelled) (e.noted_observe moment (by decide) cancelled)

theorem enter (h : e.IsSound) : (e.enter moment n).IsSound :=
  h.of_noted rfl (e.noted_enter moment n (by decide))

theorem take (h : e.IsSound) (result : ActionResult) : (e.take moment n result).IsSound :=
  h.of_noted rfl (e.noted_take moment n (by decide) result)

theorem stop (h : e.IsSound) : (e.stop moment n).IsSound :=
  h.of_noted (e.errors_stop moment n) (e.noted_stop moment n (by decide))

theorem noteRetry (h : e.IsSound) (limits : Limits) :
    (e.noteRetry moment limits n fault).IsSound :=
  h.of_noted rfl (e.noted_noteRetry moment n fault (by decide) limits)

theorem giveUp (h : e.IsSound) : (e.giveUp moment n fault).IsSound :=
  h.of_noted rfl (e.noted_giveUp moment n fault (by decide))

theorem complete (h : e.IsSound) : (e.complete moment).IsSound :=
  h.of_noted (e.marks_complete moment).errors_eq (e.noted_complete moment (by decide))

theorem abort (h : e.IsSound) (hf : ¬ fault.IsFlaw) : (e.abort moment fault).IsSound := by
  have hmoved : (e.move moment .failed).IsSound :=
    h.of_noted (e.errors_move moment .failed) (e.noted_move moment .failed)
  have hrecorded : ((e.move moment .failed).recordError moment none fault.message none
      fault.isRetryable).IsSound := hmoved.recordError hf (by rintro _ ⟨⟩)
  have hstart : Text.Apart faultStart "execution failed: " := by decide
  exact hrecorded.of_noted rfl (Execution.noted_log _ _ (hstart.append _) _ _ _)

theorem ofCall (call : Call) : (Execution.ofCall moment call).IsSound := by
  have herrors : (Execution.ofCall moment call).errors = [] := Execution.errors_move ..
  refine ⟨fun entry hentry => absurd (herrors ▸ hentry) List.not_mem_nil, ?_⟩
  rw [← Execution.noted_eq_nil_iff]
  exact Execution.noted_ofCall moment (by decide) call

/-! ## The choice of the next nodes -/

variable {f : Funnel}

theorem follows (h : e.IsSound) {source : String} {c : Connection} (hc : f.AcceptsConnection c) :
    (Funnel.follows moment source e c).2.IsSound := by
  unfold Funnel.follows
  cases hcondition : c.condition with
  | none => exact h
  | some condition =>
    obtain ⟨answer, ha⟩ := (hc.condition condition hcondition).exists_evaluate e.vars
    simp only [Execution.check, ha]
    cases answer with
    | true => exact h
    | false => exact h.of_noted rfl (e.noted_noteSkipped moment (by decide) source c.id)

theorem target (h : e.IsSound) (source id : String) :
    (f.target moment source e id).2.IsSound := by
  unfold Funnel.target
  split
  next => exact h
  next => exact h.of_noted rfl (e.noted_noteMissing moment (by decide) source id)

theorem targets (h : e.IsSound) (source : String) {connections : List Connection}
    (hc : ∀ c ∈ connections, f.AcceptsConnection c) :
    (f.targets moment source connections e).2.IsSound := by
  induction connections generalizing e with
  | nil => exact h
  | cons c rest ih =>
    obtain ⟨hfirst, hrest⟩ := List.forall_mem_cons.mp hc
    have hfollows : (Funnel.follows moment source e c).2.IsSound := h.follows hfirst
    unfold Funnel.targets
    split
    next e' he =>
      rw [he] at hfollows
      exact ih (hfollows.target source c.target) hrest
    next e' he =>
      rw [he] at hfollows
      exact ih hfollows hrest

theorem onward (h : e.IsSound) (hn : ∀ c ∈ n.connections, f.AcceptsConnection c)
    (named : Option String) : (f.onward moment n named e).2.IsSound := by
  cases named with
  | none => exact h.targets n.id hn
  | some id => exact h.target n.id id

end Execution.IsSound

/-! ## Runs -/

/-- Work whose results carry no remark and do not complain about settings. -/
def Task.IsSound (task : Task) : Prop :=
  task.Ends ActionResult.IsPlain ActionResult.IsPlain

theorem Task.IsSound.continueTask {task : Task} (h : task.IsSound) (wake : Wake) :
    (Traversal.continueTask task wake).IsSound := by
  cases h with
  | done h => exact .done h
  | sleep h =>
    obtain ⟨result, hr, hplain⟩ := h wake.moment.now
    rw [Traversal.continueTask, hr]
    exact .done hplain
  | ask h =>
    obtain ⟨result, hr, hplain⟩ := h wake.moment.now (wake.reply _)
    rw [Traversal.continueTask, hr]
    exact .done hplain

namespace Funnel.Accepted

variable {f : Funnel} {channels : List Channel} {checked limits : Limits} {n : Node}
  {fault : EngineFault}

theorem isSound_perform (h : f.Accepted (.builtIn channels) checked) (hn : n ∈ f.nodes)
    {x : Executor} (hx : (Registry.builtIn channels).executor? n.type = some x) (now : Instant)
    (e : Execution) : (x.perform now n e).IsSound :=
  (h.ends hn hx now e).mono (fun _ hr => hr.1) fun _ hr => hr.toIsPlain

theorem worksWith (h : f.Accepted (.builtIn channels) checked) (limits : Limits) :
    WorksWith ⟨.builtIn channels, limits⟩ f fun _ task => task.IsSound where
  perform hn hx now e := by
    dsimp only at hx
    exact h.isSound_perform hn hx now e
  goesOn hq wake := hq.continueTask wake

theorem exists_executor (h : f.Accepted (.builtIn channels) checked) (hn : n ∈ f.nodes) :
    ∃ x, (Registry.builtIn channels).executor? n.type = some x := by
  obtain ⟨x, hx, -⟩ := (h.nodes n hn).executor
  exact ⟨x, hx⟩

/-- What befalls a node of an accepted funnel is no flaw, and concerns the node. -/
theorem concerns_of_fails (h : f.Accepted (.builtIn channels) checked) (hn : n ∈ f.nodes)
    (hf : n.Fails ⟨.builtIn channels, limits⟩ (fun _ task => task.IsSound) fault) :
    ¬ fault.IsFlaw ∧ fault.Concerns n.id := by
  cases hf with
  | noExecutor hnone =>
    obtain ⟨x, hx⟩ := h.exists_executor hn
    dsimp only at hnone
    rw [hx] at hnone
    cases hnone
  | timeout => exact ⟨not_false, trivial⟩
  | @result r hr =>
    obtain ⟨hplain⟩ := hr
    refine ⟨fun hflaw => ?_, rfl⟩
    cases herror : r.error with
    | none =>
      -- The text that stands in for a missing one does not begin like a fault in settings.
      rw [EngineFault.IsFlaw, herror, Option.getD_none] at hflaw
      revert hflaw
      decide
    | some text =>
      rw [EngineFault.IsFlaw, herror, Option.getD_some] at hflaw
      exact hplain.error text herror hflaw

theorem not_isFlaw_of_fails (h : f.Accepted (.builtIn channels) checked)
    (hf : f.Fails ⟨.builtIn channels, limits⟩ (fun _ task => task.IsSound) fault) :
    ¬ fault.IsFlaw := by
  cases hf with
  | noEntry hnone =>
    obtain ⟨entry, hentry⟩ := h.entry
    rw [hentry] at hnone
    cases hnone
  | node hn hfails => exact (h.concerns_of_fails hn hfails).1
  | alreadyActive => exact not_false

/-- Soundness survives whatever happens in a run. -/
theorem lasts (h : f.Accepted (.builtIn channels) checked) (limits : Limits) :
    Lasts ⟨.builtIn channels, limits⟩ f (fun _ task => task.IsSound) fun e trace =>
      e.IsSound ∧ ∀ sighting ∈ trace, sighting.IsSound (.builtIn channels) where
  observe hP _ _ := ⟨hP.1.observe _, hP.2⟩
  snapshot hP := ⟨hP.1, List.forall_mem_append.mpr ⟨hP.2, by simp [Sighting.IsSound]⟩⟩
  attempt hP hn _ moment := by
    refine ⟨hP.1.enter, List.forall_mem_append.mpr ⟨hP.2, ?_⟩⟩
    obtain ⟨x, hx⟩ := h.exists_executor hn
    rintro _ hmem
    obtain rfl := List.mem_singleton.mp hmem
    exact ⟨x, hx, fun now => h.isSound_perform hn hx now _⟩
  take hP _ _ _ := ⟨hP.1.take _, hP.2⟩
  onward hP hn _ _ := ⟨hP.1.onward (h.nodes _ hn).connections _, hP.2⟩
  stop hP _ _ := ⟨hP.1.stop, hP.2⟩
  recordError hP hn hf _ := by
    obtain ⟨hflaw, hconcerns⟩ := h.concerns_of_fails hn hf
    refine ⟨hP.1.recordError hflaw ?_, hP.2⟩
    rintro _ ⟨⟩
    exact hconcerns
  noteRetry hP _ _ _ _ := ⟨hP.1.noteRetry _, hP.2⟩
  giveUp hP _ _ _ _ := ⟨hP.1.giveUp, hP.2⟩
  complete hP _ := ⟨hP.1.complete, hP.2⟩
  abort hP hf _ := ⟨hP.1.abort (h.not_isFlaw_of_fails hf), hP.2⟩

end Funnel.Accepted

/-- A run that tells of nothing which an examination is there to rule out. -/
structure Run.IsSound (registry : Registry) (r : Run) : Prop where
  entry : r.funnel.entry? ≠ none
  outcome : ∀ fault, r.walk.point = .ended (.error fault) → ¬ fault.IsFlaw
  execution : r.execution.IsSound
  trace : ∀ sighting ∈ r.walk.trace, sighting.IsSound registry

/-- **An accepted funnel runs soundly.** Whatever the variables, the replies of the services, the
cancellations and the other runs of the manager: its walk does not end by a flaw, no error tells of
one, every attempt is at a node with an executor that can read the settings, and no condition fails
to have an answer, be it that of a connection or that of a node. -/
theorem Run.accepted_runs_soundly {call : Call} {channels : List Channel} {checked : Limits}
    (h : (call.funnel.validate (.builtIn channels) checked).isValid = true) (limits : Limits)
    (moment : Moment) (manager : Manager) (course : Course) (count : Nat) :
    ((Run.start moment call manager).1.after ⟨.builtIn channels, limits⟩ course count).IsSound
      (.builtIn channels) := by
  have hf := Funnel.isValid_validate_iff.mp h
  have hlasts := hf.lasts limits
  have hcreated : (Execution.ofCall moment call).IsSound := .ofCall call
  have hstart := Run.Upholds.start hlasts rfl
    ⟨hcreated, fun _ hs => absurd hs List.not_mem_nil⟩ manager
  have hr := hstart.after (hf.worksWith limits) hlasts course count
  refine ⟨?_, ?_, hr.walk.shown.1, hr.walk.shown.2⟩
  · obtain ⟨entry, hentry⟩ := hf.entry
    rw [hr.funnel, hentry]
    exact Option.some_ne_none _
  · intro fault hpoint
    have hupholds := hr.walk.point
    rw [hpoint] at hupholds
    exact hf.not_isFlaw_of_fails (hupholds fault rfl)

/-- A trigger with a condition on the way to a condition, and behind that the end of the run. -/
def Funnel.guarded : Funnel where
  id := "guarded"
  name := ""
  description := none
  version := 1
  nodes := [
    ⟨"a", .trigger, "", .null, [⟨"ab", "a", "b", some ⟨"x", .exists, none⟩⟩], none⟩,
    ⟨"b", .condition, "", .object [
      ("condition", .object [("field", .string "x"), ("operator", .string "exists")]),
      ("trueNodeId", .string "c")], [⟨"bc", "b", "c", none⟩], none⟩,
    ⟨"c", .finish, "", .null, [], none⟩]
  tags := []
  metadata := []

theorem Run.guarded_runs_soundly :
    (Funnel.guarded.validate (.builtIn []) .standard).isValid = true ∧
      ∀ (triggerId : Option String) (vars : Variables) (moment : Moment) (manager : Manager)
          (course : Course) (count : Nat),
        ((Run.start moment ⟨.guarded, triggerId, vars⟩ manager).1.after ⟨.builtIn [], .standard⟩
          course count).IsSound (.builtIn []) := by
  have hvalid : (Funnel.guarded.validate (.builtIn []) .standard).isValid = true := by
    decide
  refine ⟨hvalid, fun triggerId vars => ?_⟩
  let call : Call := ⟨.guarded, triggerId, vars⟩
  have hcall : (call.funnel.validate (.builtIn []) .standard).isValid = true := hvalid
  exact accepted_runs_soundly hcall .standard

end Outreach
