import Outreach.Engine.System
import Outreach.Proofs.Execution.Frame
import Outreach.Proofs.Run.Change

/-!
# The life of a run

A run is running until it ends, in whatever way it ends: while it tries a node, while it waits
before it tries it again and when a fault has ended it. So it is settled exactly once, and then says
how it ended (`Execution.EndsBy`): failed, with the fault that ended it as its last error and the only
one that concerns no node, or completed or cancelled, with errors at nodes only.

What a run lets others see is one history: each of its snapshots has grown from all those before it
(`Run.snapshots_grow`).
-/

namespace Outreach

/-! ## Before and after a run is settled -/

namespace Execution

/-- An execution that is not settled yet: nothing but nodes has failed. -/
structure IsOpen (e : Execution) : Prop where
  nodes : ∀ entry ∈ e.errors, entry.node.isSome = true
  status : e.status = .running ∨ e.status = .completed ∨ e.status = .cancelled
  endedAt : e.endedAt.isSome = e.status.isTerminal

/-- An execution that is not settled yet and runs. -/
structure IsBusy (e : Execution) : Prop extends e.IsOpen where
  running : e.isRunning = true

/-- An execution that is settled, and says how it ended. -/
structure EndsBy (e : Execution) (outcome : Except EngineFault Unit) : Prop where
  terminal : e.status.isTerminal = true
  endedAt : e.endedAt.isSome = true
  failed_iff : e.status = .failed ↔ ∃ entry ∈ e.errors, entry.node = none
  failed_iff_fault : e.status = .failed ↔ ∃ fault, outcome = .error fault
  last : ∀ fault, outcome = .error fault → ∃ before entry, e.errors = before ++ [entry] ∧
    (∀ earlier ∈ before, earlier.node.isSome = true) ∧ entry.node = none ∧
    entry.message = fault.message ∧ entry.isRetryable = fault.isRetryable

variable {e e' : Execution} {moment : Moment} {n : Node} {fault : EngineFault}

theorem isBusy_ofCall (moment : Moment) (call : Call) : (ofCall moment call).IsBusy :=
  ⟨⟨nofun, .inl rfl, rfl⟩, rfl⟩

namespace IsOpen

theorem of_adds (h : e.IsOpen) (ha : e.Adds e') (herrors : e'.errors = e.errors) : e'.IsOpen := by
  refine ⟨herrors ▸ h.nodes, ha.status ▸ h.status, ?_⟩
  rw [ha.endedAt, ha.status]
  exact h.endedAt

theorem recordFault (h : e.IsOpen) : (e.recordFault moment n fault).IsOpen :=
  ⟨List.forall_mem_append.mpr ⟨h.nodes, List.forall_mem_singleton.mpr rfl⟩, h.status, h.endedAt⟩

theorem observe (h : e.IsOpen) (cancelled : Bool) : (e.observe moment cancelled).IsOpen := by
  unfold Execution.observe
  split
  next hcancelled =>
    rw [move_of_isRunning (Bool.and_eq_true_iff.mp hcancelled).2 rfl]
    exact ⟨h.nodes, .inr (.inr rfl), rfl⟩
  next => exact h

theorem stop (h : e.IsOpen) : (e.stop moment n).IsOpen := by
  unfold Execution.stop
  split
  next hrun =>
    rw [move_of_isRunning hrun rfl]
    exact ⟨h.nodes, .inr (.inl rfl), rfl⟩
  next => exact h

/-- What came to its end is completed, unless it was stopped before. -/
theorem settle_ok (h : e.IsOpen) (moment : Moment) : (e.settle moment (.ok ())).EndsBy (.ok ()) := by
  have hends {e : Execution} (h : e.IsOpen) (hover : e.isRunning = false) : e.EndsBy (.ok ()) := by
    have hstatus : e.status = .completed ∨ e.status = .cancelled :=
      h.status.resolve_left fun hs => by simp [isRunning_of_status hs] at hover
    have hterminal : e.status.isTerminal = true := by
      rcases hstatus with hs | hs <;> rw [hs] <;> rfl
    have hfailed : e.status ≠ .failed := by
      rcases hstatus with hs | hs <;> rw [hs] <;> exact Status.noConfusion
    refine ⟨hterminal, h.endedAt.trans hterminal, ⟨fun hf => absurd hf hfailed, ?_⟩,
      ⟨fun hf => absurd hf hfailed, nofun⟩, nofun⟩
    rintro ⟨entry, hentry, hnode⟩
    simpa [hnode] using h.nodes entry hentry
  cases hrun : e.isRunning with
  | false =>
    rw [settle, complete_of_not_isRunning hrun]
    exact hends h hrun
  | true =>
    rw [settle, complete, if_pos hrun, move_of_isRunning hrun rfl]
    exact hends ⟨h.nodes, .inr (.inl rfl), rfl⟩ rfl

end IsOpen

namespace IsBusy

theorem of_adds (h : e.IsBusy) (ha : e.Adds e') (herrors : e'.errors = e.errors) : e'.IsBusy :=
  ⟨h.toIsOpen.of_adds ha herrors, ha.isRunning_eq.trans h.running⟩

theorem recordFault (h : e.IsBusy) : (e.recordFault moment n fault).IsBusy :=
  ⟨h.toIsOpen.recordFault, (adds_recordError ..).isRunning_eq.trans h.running⟩

theorem enter (h : e.IsBusy) : (e.enter moment n).IsBusy :=
  h.of_adds (adds_enter ..) rfl

theorem breakDown (h : e.IsBusy) :
    ((e.recordFault moment n fault).giveUp moment n fault).IsBusy :=
  h.recordFault.of_adds (adds_giveUp ..) rfl

/-- What a fault stopped is failed. -/
theorem settle_error (h : e.IsBusy) (moment : Moment) (fault : EngineFault) :
    (e.settle moment (.error fault)).EndsBy (.error fault) := by
  obtain ⟨hstatus, hended, entry, herrors, hnode, hmessage, hretry⟩ :=
    abort_of_isRunning moment h.running fault
  rw [settle]
  refine ⟨by rw [hstatus]; rfl, by rw [hended]; rfl, ?_, ?_, ?_⟩
  · exact iff_of_true hstatus ⟨entry, by simp [herrors], hnode⟩
  · exact iff_of_true hstatus ⟨fault, rfl⟩
  · rintro _ ⟨⟩
    exact ⟨e.errors, entry, herrors, h.nodes, hnode, hmessage, hretry⟩

end IsBusy

end Execution

/-- An execution as it has to be at a stage of its run. -/
def Standing.IsInOrder (s : Standing) : Prop :=
  match s.stage with
  | .opening | .trying _ | .tried _ _ | .pausing _ | .ended (.error _) => s.execution.IsBusy
  | .between | .ended (.ok ()) => s.execution.IsOpen
  | .settled outcome => s.execution.EndsBy outcome

namespace Run.Change

open Execution

variable {engine : Engine} {f : Funnel} {Q : Node → Task → Prop} {moment : Moment}
  {cancelled : Bool} {s s' : Standing}

/-- **Every change leaves a run in order.** -/
theorem isInOrder (h : Run.Change engine f Q moment cancelled s s') (hs : s.IsInOrder) :
    s'.IsInOrder := by
  cases h with
  | register => exact hs
  | refuse => exact hs
  | noEntry => exact hs
  | setOut => exact hs.toIsOpen
  | attempt _ hrun => exact IsBusy.enter ⟨IsOpen.observe hs cancelled, hrun⟩
  | reattempt _ hrun => exact IsBusy.enter ⟨hs.toIsOpen.observe cancelled, hrun⟩
  | noExecutor => exact hs.breakDown
  | timeout => exact hs.breakDown
  | take => exact hs.of_adds (adds_take ..) rfl
  | @retry e _ n r =>
    exact (IsBusy.recordFault hs).of_adds (adds_noteRetry _ moment n (r.fault n) engine.limits) rfl
  | giveUp => exact hs.breakDown
  | finish => exact hs.toIsOpen.observe cancelled
  | @proceed e _ n r =>
    have hchosen : (f.onward moment n r.nextNode e).2.IsBusy :=
      IsBusy.of_adds hs (e.adds_onward moment n f r.nextNode) (e.errors_onward moment n f r.nextNode)
    exact hchosen.toIsOpen.observe cancelled
  | halt => exact hs.toIsOpen.observe cancelled
  | expire => exact hs
  | arrive => exact hs
  | drop => exact IsOpen.observe hs cancelled
  | stop => exact IsOpen.stop hs
  | @settle e _ outcome =>
    cases outcome with
    | ok => exact IsOpen.settle_ok hs moment
    | error fault => exact IsBusy.settle_error hs moment fault

/-- **Every change lets an execution grow.** -/
theorem growsInto (h : Run.Change engine f Q moment cancelled s s') (hs : s.IsInOrder) :
    s.execution.GrowsInto s'.execution := by
  cases h with
  | register => exact .refl _
  | refuse => exact .refl _
  | noEntry => exact .refl _
  | setOut => exact .refl _
  | attempt _ hrun => exact (growsInto_observe ..).trans (.of_adds (adds_enter ..) hrun)
  | reattempt _ hrun => exact (growsInto_observe ..).trans (.of_adds (adds_enter ..) hrun)
  | noExecutor =>
    exact .of_adds ((adds_recordError ..).trans (adds_giveUp ..)) hs.running
  | timeout =>
    exact .of_adds ((adds_recordError ..).trans (adds_giveUp ..)) hs.running
  | take => exact .of_adds (adds_take ..) hs.running
  | retry =>
    exact .of_adds ((adds_recordError ..).trans (adds_noteRetry ..)) hs.running
  | giveUp =>
    exact .of_adds ((adds_recordError ..).trans (adds_giveUp ..)) hs.running
  | finish => exact growsInto_observe ..
  | proceed =>
    exact (GrowsInto.of_adds (adds_onward ..) hs.running).trans (growsInto_observe ..)
  | halt => exact growsInto_observe ..
  | expire => exact .refl _
  | arrive => exact .refl _
  | drop => exact growsInto_observe ..
  | stop => exact growsInto_stop ..
  | @settle e _ outcome =>
    cases outcome with
    | ok => exact growsInto_complete ..
    | error fault => exact growsInto_abort moment hs.running fault

/-- A change writes one snapshot at most, and then of the execution as it has become. -/
theorem snapshots_eq (h : Run.Change engine f Q moment cancelled s s') :
    s'.trace.filterMap Sighting.snapshot? = s.trace.filterMap Sighting.snapshot? ∨
      s'.trace.filterMap Sighting.snapshot? =
        s.trace.filterMap Sighting.snapshot? ++ [s'.execution] := by
  have hattempt (trace : List Sighting) (n : Node) (e : Execution) :
      (trace ++ [Sighting.attempt n e]).filterMap Sighting.snapshot? =
        trace.filterMap Sighting.snapshot? := by
    simp [Sighting.snapshot?]
  have hsnapshot (trace : List Sighting) (e : Execution) :
      (trace ++ [Sighting.snapshot e]).filterMap Sighting.snapshot? =
        trace.filterMap Sighting.snapshot? ++ [e] := by
    simp [Sighting.snapshot?]
  cases h with
  | register | finish | proceed | halt | settle => exact .inr (hsnapshot ..)
  | attempt | reattempt => exact .inl (hattempt ..)
  | _ => exact .inl rfl

end Run.Change

theorem Standing.IsInOrder.endedAt {s : Standing} (h : s.IsInOrder) :
    s.execution.endedAt.isSome = s.execution.status.isTerminal := by
  unfold IsInOrder at h
  split at h
  next => exact h.endedAt
  next => exact h.endedAt
  next => exact h.endedAt
  next => exact h.endedAt
  next => exact h.endedAt
  next => exact h.endedAt
  next => exact h.endedAt
  next => exact h.endedAt.trans h.terminal.symm

/-! ## The history of a run -/

/-- States of an execution each of which has grown from all those before it. -/
structure Execution.IsHistory (states : List Execution) : Prop where
  grows : states.Pairwise GrowsInto
  endedAt : ∀ e ∈ states, (e.endedAt.isSome = true ↔ e.status.isTerminal = true)

namespace Execution.IsHistory

variable {states : List Execution} {e e' : Execution}

/-- The last state may grow. -/
theorem grow (h : IsHistory (states ++ [e])) (hgrows : e.GrowsInto e')
    (hended : e'.endedAt.isSome = e'.status.isTerminal) : IsHistory (states ++ [e']) := by
  obtain ⟨hstates, -, hlast⟩ := List.pairwise_append.mp h.grows
  refine ⟨List.pairwise_append.mpr ⟨hstates, List.pairwise_singleton .., ?_⟩, ?_⟩
  · intro a ha b hb
    obtain rfl := List.mem_singleton.mp hb
    exact (hlast a ha e (List.mem_singleton_self e)).trans hgrows
  · refine List.forall_mem_append.mpr ⟨fun a ha => ?_, List.forall_mem_singleton.mpr ?_⟩
    · exact h.endedAt a (List.mem_append_left _ ha)
    · rw [hended]

/-- The last state may stay as it is. -/
theorem stay (h : IsHistory (states ++ [e])) : IsHistory (states ++ [e] ++ [e]) := by
  have hlast := (List.pairwise_append.mp h.grows).2.2
  refine ⟨List.pairwise_append.mpr ⟨h.grows, List.pairwise_singleton .., ?_⟩, ?_⟩
  · intro a ha b hb
    obtain rfl := List.mem_singleton.mp hb
    rcases List.mem_append.mp ha with ha | ha
    · exact hlast a ha b (List.mem_singleton_self b)
    · rw [List.mem_singleton.mp ha]
      exact .refl b
  · exact List.forall_mem_append.mpr ⟨h.endedAt, List.forall_mem_singleton.mpr
      (h.endedAt e (List.mem_append_right _ (List.mem_singleton_self e)))⟩

end Execution.IsHistory

/-- A run in order whose snapshots are a history. -/
structure Standing.IsGrown (s : Standing) : Prop where
  inOrder : s.IsInOrder
  history : Execution.IsHistory (s.trace.filterMap Sighting.snapshot? ++ [s.execution])

theorem Run.Change.isGrown {engine : Engine} {f : Funnel} {Q : Node → Task → Prop}
    {moment : Moment} {cancelled : Bool} {s s' : Standing}
    (h : Run.Change engine f Q moment cancelled s s') (hs : s.IsGrown) : s'.IsGrown := by
  have horder := h.isInOrder hs.inOrder
  have hgrown := hs.history.grow (h.growsInto hs.inOrder) horder.endedAt
  refine ⟨horder, ?_⟩
  rcases h.snapshots_eq with hsame | hmore
  · rwa [hsame]
  · rw [hmore]
    exact hgrown.stay

namespace Run

/-- The snapshots that a run has written. -/
def snapshots (r : Run) : List Execution :=
  r.walk.trace.filterMap Sighting.snapshot?

theorem ComesFrom.isGrown {engine : Engine} {moment : Moment} {call : Call} {r : Run}
    (h : r.ComesFrom engine moment call) : r.standing.IsGrown := by
  have hcall := Execution.isBusy_ofCall moment call
  refine h.standing (WorksWith.trivial engine call.funnel) rfl (fun _ _ _ _ => Change.isGrown)
    ⟨hcall, ?_⟩
  exact ⟨List.pairwise_singleton .., List.forall_mem_singleton.mpr (by rw [hcall.endedAt])⟩

/-- **The snapshots of a run are one history.** Of any two of them, and the execution as it is now
counts as the last, the later has grown from the earlier: identity, start and metadata are the same,
logs and errors begin alike, no variable is lost, the status has not gone back, and what had ended
is the same in everything. Each of them notes an end exactly if it has ended. -/
theorem snapshots_grow (engine : Engine) (moment : Moment) (call : Call) (manager : Manager)
    (course : Course) (count : Nat) :
    let r := (Run.start moment call manager).1.after engine course count
    (r.snapshots ++ [r.execution]).Pairwise Execution.GrowsInto ∧
      ∀ e ∈ r.snapshots ++ [r.execution],
        (e.endedAt.isSome = true ↔ e.status.isTerminal = true) := by
  intro r
  have hrun : r.ComesFrom engine moment call := .after (.start manager) course count
  exact ⟨hrun.isGrown.history.grows, hrun.isGrown.history.endedAt⟩

end Run

end Outreach
