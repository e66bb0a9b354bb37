import Outreach.Proofs.Run.Lifecycle

/-!
# How a run is settled

A run closes once. Its execution then says how it ended, the last snapshot that it writes is this
execution, and the manager forgets its identifier at the same moment.
-/

namespace Outreach

open Relation (ReflTransGen)

/-- What could be seen until then is not forgotten. -/
theorem Run.Change.trace_prefix {engine : Engine} {f : Funnel} {Q : Node → Task → Prop}
    {moment : Moment} {cancelled : Bool} {s s' : Standing}
    (h : Run.Change engine f Q moment cancelled s s') : s.trace <+: s'.trace := by
  cases h with
  | register | attempt | reattempt | finish | proceed | halt | settle => exact List.prefix_append ..
  | _ => exact List.prefix_rfl

/-- A run that is settled wrote its execution last. -/
def Standing.IsWritten (s : Standing) : Prop :=
  ∀ outcome, s.stage = .settled outcome → s.trace.getLast? = some (.snapshot s.execution)

theorem Run.Change.isWritten {engine : Engine} {f : Funnel} {Q : Node → Task → Prop}
    {moment : Moment} {cancelled : Bool} {s s' : Standing}
    (h : Run.Change engine f Q moment cancelled s s') : s'.IsWritten := by
  cases h with
  | settle => exact fun _ _ => List.getLast?_concat
  | _ => exact nofun

namespace Run

variable {engine : Engine} {r : Run} {moment : Moment} {call : Call} {manager : Manager}

/-! ## From one wait to the next -/

namespace ComesFrom

theorem changes (h : r.ComesFrom engine moment call) (wake : Wake) (manager : Manager) :
    ReflTransGen (Change engine call.funnel (fun _ _ => True) wake.moment (r.isCancelled manager))
      r.standing (r.resume engine wake manager).1.standing :=
  ((h.belongsTo (WorksWith.trivial ..) rfl).resume (WorksWith.trivial ..) wake manager).changes

theorem trace_prefix (h : r.ComesFrom engine moment call) (wake : Wake) (manager : Manager) :
    r.walk.trace <+: (r.resume engine wake manager).1.walk.trace :=
  Change.keeps_all (P := fun s => r.walk.trace <+: s.trace)
    (fun _ _ hchange hs => hs.trans hchange.trace_prefix) (h.changes wake manager) List.prefix_rfl

theorem growsInto (h : r.ComesFrom engine moment call) (wake : Wake) (manager : Manager) :
    r.execution.GrowsInto (r.resume engine wake manager).1.execution := by
  have hboth := Change.keeps_all (P := fun s => s.IsInOrder ∧ r.execution.GrowsInto s.execution)
    (fun _ _ hchange hs => ⟨hchange.isInOrder hs.1, hs.2.trans (hchange.growsInto hs.1)⟩)
    (h.changes wake manager) ⟨h.isGrown.inOrder, .refl _⟩
  exact hboth.2

end ComesFrom

theorem token_follow (moment : Moment) (walk : Traversal) (manager : Manager) :
    (r.follow moment walk manager).1.token = r.token := by
  unfold follow
  dsimp only
  split <;> rfl

@[simp] theorem token_resume (engine : Engine) (wake : Wake) (r : Run) (manager : Manager) :
    (r.resume engine wake manager).1.token = r.token := by
  unfold resume
  dsimp only
  split
  next =>
    split
    next => rfl
    next => rw [token_follow]
  next => rw [token_follow]
  next => rfl
  next => rfl

/-! ## Under way and closed -/

/-- A run that has begun and has not closed yet. -/
def IsUnderWay (r : Run) : Prop :=
  r.phase = .opening ∨ r.phase = .walking

/-- A run that has closed: it may still write its last snapshot, and does nothing else. -/
def IsClosed (r : Run) : Prop :=
  r.phase = .closing ∨ r.phase = .returned

theorem IsClosed.not_isUnderWay (h : r.IsClosed) : ¬ r.IsUnderWay := by
  rintro (hphase | hphase) <;> rcases h with hclosed | hclosed <;> simp [hphase] at hclosed

theorem isClosed_of_not_isUnderWay (h : ¬ r.IsUnderWay) : r.IsClosed := by
  cases hphase : r.phase with
  | opening => exact absurd (.inl hphase) h
  | walking => exact absurd (.inr hphase) h
  | closing => exact .inl hphase
  | returned => exact .inr hphase

theorem IsUnderWay.phase_ne_returned (h : r.IsUnderWay) : r.phase ≠ .returned := by
  rcases h with hphase | hphase <;> simp [hphase]

theorem phase_start_ne_returned (moment : Moment) (call : Call) (manager : Manager) :
    (Run.start moment call manager).1.phase ≠ .returned := by
  unfold Run.start
  dsimp only
  split <;> exact Phase.noConfusion

/-- What may become of a call that gets its slot, and of the manager with it: its run opens and is
registered with a new token, or it closes since its identifier is taken, which is then forgotten. -/
inductive OpensOrCloses (moment : Moment) (call : Call) (manager : Manager) : Run × Manager → Prop
  | opens (hfree : manager.isActive (Execution.ofCall moment call).id = false) :
    OpensOrCloses moment call manager
      (⟨call.funnel, some manager.tokens.length, .opening,
          (Traversal.ready (.ofCall moment call)).see (.snapshot (.ofCall moment call))⟩,
        { manager with
          active := Manager.insert ⟨(Execution.ofCall moment call).id, call.funnel.id, moment.now,
            manager.tokens.length⟩ manager.active
          tokens := manager.tokens ++ [false] })
  | closes (htaken : manager.isActive (Execution.ofCall moment call).id = true) :
    OpensOrCloses moment call manager
      (close ⟨call.funnel, none, .opening, .ready (.ofCall moment call)⟩ moment
        (.error (.alreadyActive (Execution.ofCall moment call).id)) manager)

theorem opensOrCloses_start (moment : Moment) (call : Call) (manager : Manager) :
    OpensOrCloses moment call manager (start moment call manager) := by
  unfold start Manager.register
  dsimp only
  by_cases htaken : manager.isActive (Execution.ofCall moment call).id = true
  · rw [if_pos htaken]
    exact .closes htaken
  · rw [if_neg htaken]
    exact .opens (Bool.eq_false_iff.mpr htaken)

/-- What may become of a run under way, and of the manager with it: it walks on, or it closes and is
forgotten. -/
inductive WalksOrCloses (manager : Manager) : Run × Manager → Prop
  | walks {r : Run} (h : r.phase = .walking) : WalksOrCloses manager (r, manager)
  | closes {r : Run} (h : r.phase = .closing) :
    WalksOrCloses manager (r, manager.deregister r.execution.id)

theorem WalksOrCloses.phase_ne_returned {next : Run × Manager} (h : WalksOrCloses manager next) :
    next.1.phase ≠ .returned := by
  cases h with
  | walks h | closes h => simp [h]

theorem walksOrCloses_close (r : Run) (moment : Moment) (outcome : Except EngineFault Unit)
    (manager : Manager) : WalksOrCloses manager (r.close moment outcome manager) :=
  .closes (r := (r.close moment outcome manager).1) rfl

theorem walksOrCloses_follow (r : Run) (moment : Moment) (walk : Traversal) (manager : Manager) :
    WalksOrCloses manager (r.follow moment walk manager) := by
  unfold follow
  dsimp only
  split
  next => exact walksOrCloses_close ..
  next => exact .walks rfl

theorem IsUnderWay.resume (h : r.IsUnderWay) (engine : Engine) (wake : Wake) (manager : Manager) :
    WalksOrCloses manager (r.resume engine wake manager) := by
  unfold Run.resume
  dsimp only
  rcases h with hphase | hphase <;> rw [hphase] <;> dsimp only
  · split
    next => exact walksOrCloses_close ..
    next => exact walksOrCloses_follow ..
  · exact walksOrCloses_follow ..

theorem resume_of_closing (h : r.phase = .closing) (engine : Engine) (wake : Wake)
    (manager : Manager) : r.resume engine wake manager = ({ r with phase := .returned }, manager) := by
  unfold resume
  rw [h]

theorem IsClosed.resume (h : r.IsClosed) (engine : Engine) (wake : Wake) (manager : Manager) :
    (r.resume engine wake manager).1.IsClosed := by
  unfold Run.resume
  rcases h with hphase | hphase <;> rw [hphase]
  · exact .inr rfl
  · exact .inr hphase

/-- Nothing happens to the walk of a run that has closed. -/
theorem IsClosed.walk_resume (h : r.IsClosed) (engine : Engine) (wake : Wake) (manager : Manager) :
    (r.resume engine wake manager).1.walk = r.walk := by
  unfold Run.resume
  rcases h with hphase | hphase <;> rw [hphase]

theorem follow_of_ended (r : Run) {walk : Traversal} {outcome : Except EngineFault Unit}
    (hpoint : walk.point = .ended outcome) (moment : Moment) (manager : Manager) :
    r.follow moment walk manager =
      { r with phase := .walking, walk }.close moment outcome manager := by
  unfold follow
  rw [hpoint]

theorem follow_of_ne_ended (r : Run) {walk : Traversal}
    (hpoint : ∀ outcome, walk.point ≠ .ended outcome) (moment : Moment) (manager : Manager) :
    r.follow moment walk manager = ({ r with phase := .walking, walk }, manager) := by
  unfold follow
  split
  next outcome hended => exact absurd hended (hpoint outcome)
  next => rfl

/-! ## What a run leaves behind -/

theorem IsClosed.stage_eq (h : r.IsClosed) : r.stage = .settled r.outcome := by
  unfold stage
  rcases h with hphase | hphase <;> rw [hphase]

/-- **A run that has closed says how it ended.** -/
theorem ComesFrom.endsBy (h : r.ComesFrom engine moment call) (hclosed : r.IsClosed) :
    r.execution.EndsBy r.outcome := by
  have horder := h.isGrown.inOrder
  rwa [Standing.IsInOrder, Run.standing, hclosed.stage_eq] at horder

/-- A run that has closed offered its execution last. -/
theorem ComesFrom.getLast?_snapshots (h : r.ComesFrom engine moment call) (hclosed : r.IsClosed) :
    r.snapshots.getLast? = some r.execution := by
  have hwritten : r.standing.IsWritten := h.standing (WorksWith.trivial ..) rfl
    (fun _ _ _ _ hchange _ => hchange.isWritten) nofun
  obtain ⟨before, htrace⟩ :=
    List.getLast?_eq_some_iff.mp (hwritten r.outcome hclosed.stage_eq)
  have htrace : r.walk.trace = before ++ [.snapshot r.execution] := htrace
  simp [snapshots, htrace, Sighting.snapshot?]

end Run

/-- The report that is due when a run has ended: a failure with the text of its fault, or else its
status. -/
def Report.due (status : Status) : Except EngineFault Unit → Report
  | .ok () => .ended status
  | .error fault => .failed .failed fault.message

/-- What is reported of an execution that says how it ended is what is due. -/
theorem Execution.EndsBy.report_eq {e : Execution} {outcome : Except EngineFault Unit}
    (h : e.EndsBy outcome) : e.report = .due e.status outcome := by
  cases outcome with
  | ok =>
    have hstatus : e.status ≠ .failed := by
      intro hfailed
      obtain ⟨fault, hfault⟩ := h.failed_iff_fault.mp hfailed
      cases hfault
    rw [report, if_neg hstatus]
    rfl
  | error fault =>
    have hstatus := h.failed_iff_fault.mpr ⟨fault, rfl⟩
    obtain ⟨before, entry, herrors, -, -, hmessage, -⟩ := h.last fault rfl
    rw [report, if_pos hstatus, hstatus, herrors]
    simp [hmessage, Report.due]

end Outreach
