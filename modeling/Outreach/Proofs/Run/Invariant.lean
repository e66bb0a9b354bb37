import Outreach.Proofs.Run.Change

/-!
# What lasts through a run

A property of the execution and of what could be seen until then that survives whatever a run does
to them lasts through the run, whatever the wakes are and whoever else uses the manager
(`Run.Upholds.after`). At which stage the run is does not matter to it.
-/

namespace Outreach

open Relation (ReflTransGen)

/-- How a node may fail, if `Q` holds of the work at it. -/
inductive Node.Fails (engine : Engine) (Q : Node → Task → Prop) (n : Node) : EngineFault → Prop
  | noExecutor (h : engine.registry.executor? n.type = none) :
    Fails engine Q n (.noExecutor n.id n.type)
  | timeout (limit : Nat) : Fails engine Q n (.timeout limit)
  | result {r : ActionResult} (h : Q n (.done r)) (hr : r.success = false) :
    Fails engine Q n (.nodeFailed n.id (r.error.getD "node execution failed"))

/-- How a run may fail. -/
inductive Funnel.Fails (engine : Engine) (f : Funnel) (Q : Node → Task → Prop) : EngineFault → Prop
  | noEntry (h : f.entry? = none) : Fails engine f Q (.noEntry f.id)
  | node {n : Node} {fault : EngineFault} (hn : n ∈ f.nodes) (h : n.Fails engine Q fault) :
    Fails engine f Q fault
  | alreadyActive (id : Identifier) : Fails engine f Q (.alreadyActive id)

/-- A property of executions and traces that survives whatever happens in a run. -/
structure Lasts (engine : Engine) (f : Funnel) (Q : Node → Task → Prop)
    (P : Execution → List Sighting → Prop) : Prop where
  observe : ∀ {e trace}, P e trace → ∀ moment cancelled, P (e.observe moment cancelled) trace
  snapshot : ∀ {e trace}, P e trace → P e (trace ++ [.snapshot e])
  attempt : ∀ {e trace n}, P e trace → n ∈ f.nodes → e.isRunning = true →
    ∀ moment, P (e.enter moment n) (trace ++ [.attempt n (e.enter moment n)])
  take : ∀ {e trace n r}, P e trace → n ∈ f.nodes → Q n (.done r) →
    ∀ moment, P (e.take moment n r) trace
  onward : ∀ {e trace n r}, P e trace → n ∈ f.nodes → Q n (.done r) →
    ∀ moment, P (f.onward moment n r.nextNode e).2 trace
  stop : ∀ {e trace n}, P e trace → n ∈ f.nodes → ∀ moment, P (e.stop moment n) trace
  recordError : ∀ {e trace n fault}, P e trace → n ∈ f.nodes → n.Fails engine Q fault →
    ∀ moment, P (e.recordError moment (some n.id) fault.message none fault.isRetryable) trace
  noteRetry : ∀ {e trace n fault}, P e trace → n ∈ f.nodes → n.Fails engine Q fault →
    engine.limits.allowsRetry fault (e.errorsAt n.id) = true →
    ∀ moment, P (e.noteRetry moment engine.limits n fault) trace
  giveUp : ∀ {e trace n fault}, P e trace → n ∈ f.nodes → n.Fails engine Q fault →
    engine.limits.allowsRetry fault (e.errorsAt n.id) = false →
    ∀ moment, P (e.giveUp moment n fault) trace
  complete : ∀ {e trace}, P e trace → ∀ moment, P (e.complete moment) trace
  abort : ∀ {e trace fault}, P e trace → f.Fails engine Q fault →
    ∀ moment, P (e.abort moment fault) trace

/-- Nothing at all lasts. -/
theorem Lasts.trivial {engine : Engine} {f : Funnel} {Q : Node → Task → Prop} :
    Lasts engine f Q fun _ _ => True := by
  constructor <;> intros <;> exact True.intro

/-- A property that lasts, at a stage of a run that ended by a fault only if it may fail so. -/
structure Standing.Upholds (engine : Engine) (f : Funnel) (Q : Node → Task → Prop)
    (P : Execution → List Sighting → Prop) (s : Standing) : Prop where
  shown : P s.execution s.trace
  ended : ∀ fault, s.stage = .ended (.error fault) → f.Fails engine Q fault

section

variable {engine : Engine} {f : Funnel} {Q : Node → Task → Prop}
  {P : Execution → List Sighting → Prop} {moment : Moment} {cancelled : Bool} {s s' : Standing}

/-- What lasts survives a fault that is given up on. -/
theorem Lasts.breakDown (hP : Lasts engine f Q P) {e : Execution} {trace : List Sighting}
    (h : P e trace) {n : Node} (hn : n ∈ f.nodes) {fault : EngineFault}
    (hf : n.Fails engine Q fault)
    (hretry : engine.limits.allowsRetry fault ((e.recordFault moment n fault).errorsAt n.id) = false) :
    Standing.Upholds engine f Q P
      ⟨.ended (.error fault), (e.recordFault moment n fault).giveUp moment n fault, trace⟩ := by
  refine ⟨hP.giveUp (hP.recordError h hn hf moment) hn hf hretry moment, ?_⟩
  rintro _ ⟨⟩
  exact .node hn hf

/-- What lasts survives every change. -/
theorem Lasts.change (hP : Lasts engine f Q P) (h : s.Upholds engine f Q P)
    (hchange : Run.Change engine f Q moment cancelled s s') : s'.Upholds engine f Q P := by
  have hshown := h.shown
  cases hchange with
  | register => exact ⟨hP.snapshot hshown, nofun⟩
  | refuse => exact ⟨hshown, by rintro _ ⟨⟩; exact .alreadyActive _⟩
  | noEntry hentry => exact ⟨hshown, by rintro _ ⟨⟩; exact .noEntry hentry⟩
  | setOut => exact ⟨hshown, nofun⟩
  | attempt hn hrun => exact ⟨hP.attempt (hP.observe hshown _ _) hn hrun _, nofun⟩
  | reattempt hn hrun => exact ⟨hP.attempt (hP.observe hshown _ _) hn hrun _, nofun⟩
  | noExecutor hn hx =>
    exact hP.breakDown hshown hn (.noExecutor hx) (Traversal.allowsRetry_of_not_isRetryable rfl _)
  | timeout hn limit =>
    exact hP.breakDown hshown hn (.timeout limit) (Traversal.allowsRetry_of_not_isRetryable rfl _)
  | take hn hr => exact ⟨hP.take hshown hn hr _, nofun⟩
  | retry hn hr hfail hretry =>
    exact ⟨hP.noteRetry (hP.recordError hshown hn (.result hr hfail) _) hn (.result hr hfail) hretry
      _, nofun⟩
  | giveUp hn hr hfail hretry => exact hP.breakDown hshown hn (.result hr hfail) hretry
  | finish => exact ⟨hP.snapshot (hP.observe hshown _ _), nofun⟩
  | proceed hn hr => exact ⟨hP.snapshot (hP.observe (hP.onward hshown hn hr _) _ _), nofun⟩
  | halt => exact ⟨hP.snapshot (hP.observe hshown _ _), nofun⟩
  | expire hn limit => exact ⟨hshown, by rintro _ ⟨⟩; exact .node hn (.timeout limit)⟩
  | arrive => exact ⟨hshown, nofun⟩
  | drop => exact ⟨hP.observe hshown _ _, nofun⟩
  | stop hn => exact ⟨hP.stop hshown hn _, nofun⟩
  | @settle e trace outcome =>
    refine ⟨hP.snapshot ?_, nofun⟩
    cases outcome with
    | ok => exact hP.complete hshown _
    | error fault => exact hP.abort hshown (h.ended fault rfl) _

theorem Lasts.changes (hP : Lasts engine f Q P) (h : s.Upholds engine f Q P)
    (hchanges : ReflTransGen (Run.Change engine f Q moment cancelled) s s') :
    s'.Upholds engine f Q P := by
  induction hchanges with
  | refl => exact h
  | tail _ hchange ih => exact hP.change ih hchange

end

/-- A point at which only nodes of the funnel and work with the property `Q` have a part. -/
def Point.Upholds (engine : Engine) (f : Funnel) (Q : Node → Task → Prop) : Point → Prop
  | .ended outcome => ∀ fault, outcome = .error fault → f.Fails engine Q fault
  | p => p.BelongsTo engine f Q

theorem Point.Upholds.belongsTo {engine : Engine} {f : Funnel} {Q : Node → Task → Prop}
    {p : Point} (h : p.Upholds engine f Q) : p.BelongsTo engine f Q := by
  cases p with
  | ended => exact trivial
  | _ => exact h

namespace Traversal

variable (engine : Engine) (f : Funnel) (Q : Node → Task → Prop)
  (P : Execution → List Sighting → Prop)

/-- A walk of which `P` holds, with only nodes of the funnel before it. -/
structure Carries (t : Traversal) : Prop where
  pending : t.pending ⊆ f.nodes
  shown : P t.execution t.trace

/-- A walk of which `P` holds, and of the point at which it stands nothing else is known. -/
structure Upholds (t : Traversal) : Prop extends t.Carries f P where
  point : t.point.Upholds engine f Q

variable {engine f Q P} {t : Traversal} {n : Node} {moment : Moment} {cancelled : Bool}
  {s : Standing} (wake : Wake)

/-- What lasts holds of a walk that changes have brought to where it stands. -/
theorem Rests.upholds (h : t.Rests engine f Q moment cancelled s) (hP : Lasts engine f Q P)
    (hs : s.Upholds engine f Q P) : t.Upholds engine f Q P := by
  obtain ⟨hshown, hended⟩ := hP.changes hs h.changes
  refine ⟨⟨h.pending, hshown⟩, ?_⟩
  have hpoint := h.point
  cases hp : t.point with
  | ended outcome =>
    rintro fault rfl
    exact hended fault (congrArg Point.stage hp)
  | _ =>
    rw [hp] at hpoint
    exact hpoint

/-- A step of a walk keeps what lasts. -/
theorem Upholds.resume (hQ : WorksWith engine f Q) (hP : Lasts engine f Q P)
    (h : t.Upholds engine f Q P) : (t.resume engine f wake).Upholds engine f Q P := by
  have hrests : t.Rests engine f Q wake.moment wake.cancelled t.standing :=
    ⟨⟨h.pending, .refl⟩, h.point.belongsTo⟩
  refine (hrests.resume wake hQ).upholds hP ⟨h.shown, fun fault hstage => ?_⟩
  have hpoint := h.point
  cases hp : t.point with
  | ended outcome =>
    rw [hp] at hpoint
    rw [standing, hp] at hstage
    cases hstage
    exact hpoint fault rfl
  | _ =>
    rw [standing, hp] at hstage
    cases hstage

/-- The first step of a walk keeps what lasts. -/
theorem Carries.start (hQ : WorksWith engine f Q) (hP : Lasts engine f Q P)
    (h : P t.execution t.trace) (hn : n ∈ f.nodes) (budget : Budget) :
    (t.start engine f wake n budget).Upholds engine f Q P := by
  have hstart : (t.start engine f wake n budget).Rests engine f Q wake.moment wake.cancelled
      ⟨.between, t.execution, t.trace⟩ := ComesTo.start wake hQ .refl hn budget
  exact hstart.upholds hP ⟨h, nofun⟩

end Traversal

namespace Run

variable (engine : Engine) (f : Funnel) (Q : Node → Task → Prop)
  (P : Execution → List Sighting → Prop)

/-- A run through a funnel of which `P` holds. -/
structure Upholds (r : Run) : Prop where
  funnel : r.funnel = f
  walk : r.walk.Upholds engine f Q P

variable {engine f Q P} {r : Run}

theorem Upholds.close (hP : Lasts engine f Q P) (h : r.Upholds engine f Q P) (moment : Moment)
    (manager : Manager) {outcome : Except EngineFault Unit}
    (ho : ∀ fault, outcome = .error fault → f.Fails engine Q fault) :
    (r.close moment outcome manager).1.Upholds engine f Q P := by
  have hsettled : P (r.execution.settle moment outcome) r.walk.trace := by
    cases outcome with
    | ok => exact hP.complete h.walk.shown moment
    | error fault => exact hP.abort h.walk.shown (ho fault rfl) moment
  exact ⟨h.funnel, ⟨⟨h.walk.pending, hP.snapshot hsettled⟩, h.walk.point⟩⟩

theorem Upholds.follow (hP : Lasts engine f Q P) (h : r.Upholds engine f Q P) {walk : Traversal}
    (hw : walk.Upholds engine f Q P) (moment : Moment) (manager : Manager) :
    (r.follow moment walk manager).1.Upholds engine f Q P := by
  have hwalk : Upholds engine f Q P { r with phase := .walking, walk } := ⟨h.funnel, hw⟩
  unfold Run.follow
  dsimp only
  split
  next outcome hp =>
    have hpoint := hw.point
    rw [hp] at hpoint
    exact hwalk.close hP moment manager hpoint
  next => exact hwalk

theorem Upholds.resume (hQ : WorksWith engine f Q) (hP : Lasts engine f Q P)
    (h : r.Upholds engine f Q P) (wake : Wake) (manager : Manager) :
    (r.resume engine wake manager).1.Upholds engine f Q P := by
  unfold Run.resume
  dsimp only
  split
  next =>
    rw [h.funnel]
    split
    next hentry =>
      refine h.close hP _ manager ?_
      rintro _ ⟨⟩
      exact .noEntry hentry
    next n hentry =>
      exact h.follow hP (Traversal.Carries.start _ hQ hP h.walk.shown
        (Funnel.mem_of_entry? hentry) _) _ manager
  next =>
    rw [h.funnel]
    exact h.follow hP (h.walk.resume _ hQ hP) _ manager
  next => exact ⟨h.funnel, h.walk⟩
  next => exact h

theorem Upholds.start (hP : Lasts engine f Q P) {moment : Moment} {call : Call}
    (hcall : call.funnel = f) (h : P (Execution.ofCall moment call) []) (manager : Manager) :
    (Run.start moment call manager).1.Upholds engine f Q P := by
  unfold Run.start
  dsimp only
  split
  next => exact ⟨hcall, ⟨⟨List.nil_subset _, hP.snapshot h⟩, by rintro _ ⟨⟩⟩⟩
  next fault hregister =>
    have hready : Upholds engine f Q P
        ⟨call.funnel, none, .opening, .ready (Execution.ofCall moment call)⟩ :=
      ⟨hcall, ⟨⟨List.nil_subset _, h⟩, by rintro _ ⟨⟩⟩⟩
    refine hready.close hP moment manager ?_
    rintro _ ⟨⟩
    rw [Manager.register] at hregister
    split at hregister
    next =>
      cases hregister
      exact .alreadyActive _
    next => cases hregister

/-- **What survives every step lasts through a run.** -/
theorem Upholds.after (hQ : WorksWith engine f Q) (hP : Lasts engine f Q P)
    (h : r.Upholds engine f Q P) (course : Course) (count : Nat) :
    (r.after engine course count).Upholds engine f Q P :=
  after_keeps engine (fun _ wake manager hr => hr.resume hQ hP wake manager) h course count

end Run

end Outreach
