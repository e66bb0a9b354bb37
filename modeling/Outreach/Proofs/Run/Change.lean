import Mathlib.Logic.Relation
import Outreach.Engine.Run
import Outreach.Proofs.Execution.Growth
import Outreach.Proofs.Funnel.Lookup

/-!
# What happens in a run

Whatever a run does to its execution and lets others see, it does in one of a few changes, each of
which leads from one stage to another: `Run.Change` lists them. Between two waits there are any
number of changes, all at one reading of the clock (`Run.BelongsTo.resume`). So what every change
keeps lasts through a run, whatever the wakes are and whoever else uses the manager
(`Run.ComesFrom.standing`).

Besides the changes there is a property `Q` of the work at a node: it holds of what an executor sets
out to do and is kept while the work goes on, so it holds of every result as well.
-/

namespace Outreach

open Relation (ReflTransGen)

/-! ## Stages -/

/-- What a run is about. -/
inductive Run.Stage where
  /-- It has not set out yet. -/
  | opening
  /-- It is between two nodes. -/
  | between
  /-- It tries a node. -/
  | trying (n : Node)
  /-- It has the result of an attempt at a node. -/
  | tried (n : Node) (result : ActionResult)
  /-- It waits before it tries a node again. -/
  | pausing (n : Node)
  /-- It has come to its end, or a fault ended it. -/
  | ended (outcome : Except EngineFault Unit)
  /-- It is settled. -/
  | settled (outcome : Except EngineFault Unit)

/-- A stage of a run, with its execution and what could be seen until then. -/
structure Standing where
  stage : Run.Stage
  execution : Execution
  trace : List Sighting

/-- What an executor reports that did not work at a node. -/
def ActionResult.fault (r : ActionResult) (n : Node) : EngineFault :=
  .nodeFailed n.id (r.error.getD "node execution failed")

/-- Records a fault at a node. -/
def Execution.recordFault (e : Execution) (moment : Moment) (n : Node) (fault : EngineFault) :
    Execution :=
  e.recordError moment (some n.id) fault.message none fault.isRetryable

section

variable (engine : Engine) (f : Funnel) (Q : Node → Task → Prop)

/-- A property of the work at nodes that holds whenever work begins or goes on. -/
structure WorksWith : Prop where
  perform : ∀ {n x}, n ∈ f.nodes → engine.registry.executor? n.type = some x →
    ∀ now e, Q n (x.perform now n e)
  goesOn : ∀ {n task}, Q n task → ∀ wake, Q n (Traversal.continueTask task wake)

/-- Nothing in particular holds of any work. -/
theorem WorksWith.trivial : WorksWith engine f fun _ _ => True :=
  ⟨fun _ _ _ _ => True.intro, fun _ _ => True.intro⟩

/-- A change of a run, at a moment and with a cancellation requested or not. -/
inductive Run.Change (moment : Moment) (cancelled : Bool) : Standing → Standing → Prop
  /-- The first snapshot is written. -/
  | register {e trace} : Change moment cancelled ⟨.opening, e, trace⟩
      ⟨.opening, e, trace ++ [.snapshot e]⟩
  /-- The identifier is taken. -/
  | refuse {e trace} : Change moment cancelled ⟨.opening, e, trace⟩
      ⟨.ended (.error (.alreadyActive e.id)), e, trace⟩
  /-- There is no entry. -/
  | noEntry {e trace} (h : f.entry? = none) : Change moment cancelled ⟨.opening, e, trace⟩
      ⟨.ended (.error (.noEntry f.id)), e, trace⟩
  /-- The walk sets out. -/
  | setOut {e trace} (h : f.entry?.isSome = true) : Change moment cancelled ⟨.opening, e, trace⟩
      ⟨.between, e, trace⟩
  /-- A node is tried for the first time. -/
  | attempt {e trace n} (hn : n ∈ f.nodes)
      (hrun : (e.observe moment cancelled).isRunning = true) :
      Change moment cancelled ⟨.between, e, trace⟩ ⟨.trying n,
        (e.observe moment cancelled).enter moment n,
        trace ++ [.attempt n ((e.observe moment cancelled).enter moment n)]⟩
  /-- A node is tried again. -/
  | reattempt {e trace n} (hn : n ∈ f.nodes)
      (hrun : (e.observe moment cancelled).isRunning = true) :
      Change moment cancelled ⟨.pausing n, e, trace⟩ ⟨.trying n,
        (e.observe moment cancelled).enter moment n,
        trace ++ [.attempt n ((e.observe moment cancelled).enter moment n)]⟩
  /-- The type of a node has no executor. -/
  | noExecutor {e trace n} (hn : n ∈ f.nodes) (h : engine.registry.executor? n.type = none) :
      Change moment cancelled ⟨.trying n, e, trace⟩ ⟨.ended (.error (.noExecutor n.id n.type)),
        (e.recordFault moment n (.noExecutor n.id n.type)).giveUp moment n
          (.noExecutor n.id n.type), trace⟩
  /-- The time is over while a node is at work. -/
  | timeout {e trace n} (hn : n ∈ f.nodes) (limit : Nat) :
      Change moment cancelled ⟨.trying n, e, trace⟩ ⟨.ended (.error (.timeout limit)),
        (e.recordFault moment n (.timeout limit)).giveUp moment n (.timeout limit), trace⟩
  /-- An attempt comes to a result. -/
  | take {e trace n r} (hn : n ∈ f.nodes) (hr : Q n (.done r)) :
      Change moment cancelled ⟨.trying n, e, trace⟩ ⟨.tried n r, e.take moment n r, trace⟩
  /-- A node that failed is to be tried again. -/
  | retry {e trace n r} (hn : n ∈ f.nodes) (hr : Q n (.done r)) (hfail : r.success = false)
      (h : engine.limits.allowsRetry (r.fault n)
        ((e.recordFault moment n (r.fault n)).errorsAt n.id) = true) :
      Change moment cancelled ⟨.tried n r, e, trace⟩ ⟨.pausing n,
        (e.recordFault moment n (r.fault n)).noteRetry moment engine.limits n (r.fault n), trace⟩
  /-- A node failed for good. -/
  | giveUp {e trace n r} (hn : n ∈ f.nodes) (hr : Q n (.done r)) (hfail : r.success = false)
      (h : engine.limits.allowsRetry (r.fault n)
        ((e.recordFault moment n (r.fault n)).errorsAt n.id) = false) :
      Change moment cancelled ⟨.tried n r, e, trace⟩ ⟨.ended (.error (r.fault n)),
        (e.recordFault moment n (r.fault n)).giveUp moment n (r.fault n), trace⟩
  /-- A node asks to end the run. -/
  | finish {e trace n r} (hn : n ∈ f.nodes) (hwork : r.success = true)
      (hstop : r.shouldContinue = false) : Change moment cancelled ⟨.tried n r, e, trace⟩
        ⟨.between, e.observe moment cancelled, trace ++ [.snapshot (e.observe moment cancelled)]⟩
  /-- A node leads on. -/
  | proceed {e trace n r} (hn : n ∈ f.nodes) (hr : Q n (.done r)) (hwork : r.success = true)
      (hgo : r.shouldContinue = true) : Change moment cancelled ⟨.tried n r, e, trace⟩ ⟨.between,
        (f.onward moment n r.nextNode e).2.observe moment cancelled,
        trace ++ [.snapshot ((f.onward moment n r.nextNode e).2.observe moment cancelled)]⟩
  /-- The run is cancelled before a node is tried again. -/
  | halt {e trace n} (hover : (e.observe moment cancelled).isRunning = false) :
      Change moment cancelled ⟨.pausing n, e, trace⟩
        ⟨.between, e.observe moment cancelled, trace ++ [.snapshot (e.observe moment cancelled)]⟩
  /-- The time is over before a node is tried again. -/
  | expire {e trace n} (hn : n ∈ f.nodes) (limit : Nat) :
      Change moment cancelled ⟨.pausing n, e, trace⟩ ⟨.ended (.error (.timeout limit)), e, trace⟩
  /-- Nothing is left to be done. -/
  | arrive {e trace} : Change moment cancelled ⟨.between, e, trace⟩ ⟨.ended (.ok ()), e, trace⟩
  /-- What is left to be done is not done any more. -/
  | drop {e trace} (hover : (e.observe moment cancelled).isRunning = false) :
      Change moment cancelled ⟨.between, e, trace⟩ ⟨.ended (.ok ()), e.observe moment cancelled, trace⟩
  /-- The run ends because a node asked to end it. -/
  | stop {e trace n} (hn : n ∈ f.nodes) :
      Change moment cancelled ⟨.between, e, trace⟩ ⟨.ended (.ok ()), e.stop moment n, trace⟩
  /-- A run that has ended is settled. -/
  | settle {e trace outcome} : Change moment cancelled ⟨.ended outcome, e, trace⟩
      ⟨.settled outcome, e.settle moment outcome,
        trace ++ [.snapshot (e.settle moment outcome)]⟩

end

/-! ## Walks -/

/-- The stage of a walk that stands still. -/
def Point.stage : Point → Run.Stage
  | .saving _ _ => .between
  | .working n _ _ => .trying n
  | .pausing n => .pausing n
  | .ended outcome => .ended outcome

/-- The stage of a walk, with its execution and what could be seen until now. -/
def Traversal.standing (t : Traversal) : Standing :=
  ⟨t.point.stage, t.execution, t.trace⟩

/-- A point at which only nodes of the funnel, their executors and work with the property `Q` have a
part. -/
def Point.BelongsTo (engine : Engine) (f : Funnel) (Q : Node → Task → Prop) : Point → Prop
  | .saving n step => n ∈ f.nodes ∧ ∀ next, step = .proceed next → next ⊆ f.nodes
  | .working n isExempt task => n ∈ f.nodes ∧ Q n task ∧ (∀ result, task ≠ .done result) ∧
      ∃ x, engine.registry.executor? n.type = some x ∧ isExempt = x.isExempt
  | .pausing n => n ∈ f.nodes
  | .ended _ => True

namespace Traversal

variable (engine : Engine) (f : Funnel) (Q : Node → Task → Prop) (moment : Moment)
  (cancelled : Bool) (s : Standing)

/-- A walk that changes have brought to a stage, with only nodes of the funnel before it. -/
structure ComesTo (stage : Run.Stage) (t : Traversal) : Prop where
  pending : t.pending ⊆ f.nodes
  changes : ReflTransGen (Run.Change engine f Q moment cancelled) s
    ⟨stage, t.execution, t.trace⟩

/-- A walk that changes have brought to the point at which it stands. -/
structure Rests (t : Traversal) : Prop extends
    t.ComesTo engine f Q moment cancelled s t.point.stage where
  point : t.point.BelongsTo engine f Q

variable {engine f Q moment cancelled s} {stage stage' : Run.Stage} {t t' : Traversal} {n : Node}
  {wake : Wake}

theorem ComesTo.change (h : t.ComesTo engine f Q moment cancelled s stage)
    (hpending : t'.pending ⊆ f.nodes)
    (hchange : Run.Change engine f Q moment cancelled ⟨stage, t.execution, t.trace⟩
      ⟨stage', t'.execution, t'.trace⟩) : t'.ComesTo engine f Q moment cancelled s stage' :=
  ⟨hpending, h.changes.tail hchange⟩

theorem allowsRetry_of_not_isRetryable {limits : Limits} {fault : EngineFault}
    (h : fault.isRetryable = false) (recorded : Nat) :
    limits.allowsRetry fault recorded = false := by
  rw [Limits.allowsRetry, h, Bool.false_and]

/-- A fault that cannot be mended ends a walk. -/
theorem fail_of_not_allowsRetry (t : Traversal) {fault : EngineFault}
    (h : engine.limits.allowsRetry fault
      ((t.execution.recordFault wake.moment n fault).errorsAt n.id) = false) :
    t.fail engine wake n fault =
      { t with execution :=
          (t.execution.recordFault wake.moment n fault).giveUp wake.moment n fault }.finish
        (.error fault) := by
  rw [fail]
  exact if_neg (Bool.not_eq_true _ ▸ h)

theorem fail_of_not_isRetryable (t : Traversal) {fault : EngineFault} (h : fault.isRetryable = false) :
    t.fail engine wake n fault =
      { t with execution :=
          (t.execution.recordFault wake.moment n fault).giveUp wake.moment n fault }.finish
        (.error fault) :=
  fail_of_not_allowsRetry t (allowsRetry_of_not_isRetryable h _)

/-- A fault that may be mended makes a walk pause. -/
theorem fail_of_allowsRetry (t : Traversal) {fault : EngineFault}
    (h : engine.limits.allowsRetry fault
      ((t.execution.recordFault wake.moment n fault).errorsAt n.id) = true) :
    t.fail engine wake n fault =
      { t with
        execution := (t.execution.recordFault wake.moment n fault).noteRetry wake.moment
          engine.limits n fault,
        point := .pausing n } := by
  rw [fail]
  exact if_pos h

section

variable (wake) (hn : n ∈ f.nodes)

include hn

theorem rests_settle (t : Traversal) (hpending : t.pending ⊆ f.nodes)
    (h : ReflTransGen (Run.Change engine f Q wake.moment wake.cancelled) s ⟨.between,
      t.execution.observe wake.moment wake.cancelled,
      t.trace ++ [.snapshot (t.execution.observe wake.moment wake.cancelled)]⟩)
    {step : Step} (hs : ∀ next, step = .proceed next → next ⊆ f.nodes) :
    (t.settle wake n step).Rests engine f Q wake.moment wake.cancelled s :=
  ⟨⟨hpending, h⟩, hn, hs⟩

/-- A failure that an executor reports makes a walk pause or ends it. -/
theorem ComesTo.fail {result : ActionResult}
    (h : t.ComesTo engine f Q wake.moment wake.cancelled s (.tried n result))
    (hr : Q n (.done result)) (hfail : result.success = false) :
    (t.fail engine wake n (result.fault n)).Rests engine f Q wake.moment wake.cancelled s := by
  cases hretry : engine.limits.allowsRetry (result.fault n)
      ((t.execution.recordFault wake.moment n (result.fault n)).errorsAt n.id) with
  | true =>
    rw [fail_of_allowsRetry t hretry]
    exact ⟨h.change h.pending (.retry hn hr hfail hretry), hn⟩
  | false =>
    rw [fail_of_not_allowsRetry t hretry]
    exact ⟨h.change h.pending (.giveUp hn hr hfail hretry), trivial⟩

theorem ComesTo.conclude (h : t.ComesTo engine f Q wake.moment wake.cancelled s (.trying n))
    {result : ActionResult} (hr : Q n (.done result)) :
    (t.conclude engine f wake n result).Rests engine f Q wake.moment wake.cancelled s := by
  let e := t.execution.take wake.moment n result
  have htaken : ComesTo engine f Q wake.moment wake.cancelled s (.tried n result)
      { t with execution := e } := h.change h.pending (.take hn hr)
  unfold Traversal.conclude
  dsimp only
  split
  next hfail =>
    have hfail : result.success = false := by simpa using hfail
    exact htaken.fail wake hn hr hfail
  next hwork =>
    have hwork : result.success = true := by simpa using hwork
    split
    next hstop =>
      have hstop : result.shouldContinue = false := by simpa using hstop
      exact rests_settle wake hn { t with execution := e } h.pending
        (htaken.changes.tail (.finish hn hwork hstop)) nofun
    next hgo =>
      have hgo : result.shouldContinue = true := by simpa using hgo
      let e' := (f.onward wake.moment n result.nextNode e).2
      refine rests_settle wake hn { t with execution := e' } h.pending
        (htaken.changes.tail (.proceed hn hr hwork hgo)) ?_
      rintro _ ⟨⟩
      exact fun m hm => Funnel.mem_of_mem_onward _ _ hm

theorem ComesTo.work (h : t.ComesTo engine f Q wake.moment wake.cancelled s (.trying n))
    {x : Executor} (hx : engine.registry.executor? n.type = some x) {task : Task} (hq : Q n task) :
    (t.work engine f wake n x.isExempt task).Rests engine f Q wake.moment wake.cancelled s := by
  cases task with
  | done result => exact h.conclude wake hn hq
  | sleep => exact ⟨⟨h.pending, h.changes⟩, hn, hq, nofun, x, hx, rfl⟩
  | ask => exact ⟨⟨h.pending, h.changes⟩, hn, hq, nofun, x, hx, rfl⟩

/-- What follows from entering a node. -/
theorem ComesTo.attempt (hQ : WorksWith engine f Q)
    (h : (see { t with execution := t.execution.enter wake.moment n }
        (.attempt n (t.execution.enter wake.moment n))).ComesTo engine f Q wake.moment
      wake.cancelled s (.trying n)) :
    (t.attempt engine f wake n).Rests engine f Q wake.moment wake.cancelled s := by
  unfold Traversal.attempt
  dsimp only
  split
  next hx =>
    have hfault : (EngineFault.noExecutor n.id n.type).isRetryable = false := rfl
    rw [fail_of_not_isRetryable _ hfault]
    exact ⟨h.change h.pending (.noExecutor hn hx), trivial⟩
  next x hx => exact h.work wake hn hx (hQ.perform hn hx _ _)

end

variable (wake)

theorem ComesTo.advance (hQ : WorksWith engine f Q)
    (h : t.ComesTo engine f Q wake.moment wake.cancelled s .between) :
    (t.advance engine f wake).Rests engine f Q wake.moment wake.cancelled s := by
  unfold Traversal.advance
  split
  next => exact ⟨h.change h.pending .arrive, trivial⟩
  next n rest hpending =>
    have hnodes : n ∈ f.nodes ∧ rest ⊆ f.nodes := List.cons_subset.mp (hpending ▸ h.pending)
    dsimp only
    split
    next hrun =>
      exact ComesTo.attempt wake hnodes.1 hQ (h.change hnodes.2 (.attempt hnodes.1 hrun))
    next hrun =>
      have hover : (t.execution.observe wake.moment wake.cancelled).isRunning = false := by
        simpa using hrun
      exact ⟨h.change hnodes.2 (.drop hover), trivial⟩

theorem ComesTo.proceed (hQ : WorksWith engine f Q)
    (h : t.ComesTo engine f Q wake.moment wake.cancelled s .between) (hn : n ∈ f.nodes)
    {step : Step} (hs : ∀ next, step = .proceed next → next ⊆ f.nodes) :
    (t.proceed engine f wake n step).Rests engine f Q wake.moment wake.cancelled s := by
  cases step with
  | proceed next =>
    have hpushed : ComesTo engine f Q wake.moment wake.cancelled s .between
        { t with pending := next ++ t.pending } :=
      ⟨List.append_subset.mpr ⟨hs next rfl, h.pending⟩, h.changes⟩
    exact hpushed.advance wake hQ
  | finish => exact ⟨h.change h.pending (.stop hn), trivial⟩
  | halt => exact ⟨h.change h.pending .arrive, trivial⟩

/-- **From one wait of a walk to the next there are only changes.** -/
theorem Rests.resume (hQ : WorksWith engine f Q)
    (h : t.Rests engine f Q wake.moment wake.cancelled s) :
    (t.resume engine f wake).Rests engine f Q wake.moment wake.cancelled s := by
  have hpoint := h.point
  have hstage := h.toComesTo
  unfold Traversal.resume
  split
  next => exact h
  next n step hp =>
    rw [hp] at hpoint hstage
    exact hstage.proceed wake hQ hpoint.1 hpoint.2
  next n isExempt task hp =>
    rw [hp] at hpoint hstage
    obtain ⟨hn, hq, -, x, hx, rfl⟩ := hpoint
    split
    next =>
      have hfault : (EngineFault.timeout t.budget.limit).isRetryable = false := rfl
      rw [fail_of_not_isRetryable _ hfault]
      exact ⟨hstage.change h.pending (.timeout hn _), trivial⟩
    next budget _ =>
      have hcharged : ComesTo engine f Q wake.moment wake.cancelled s (.trying n)
          { t with budget } := ⟨h.pending, hstage.changes⟩
      exact hcharged.work wake hn hx (hQ.goesOn hq wake)
  next n hp =>
    rw [hp] at hpoint hstage
    split
    next => exact ⟨hstage.change h.pending (.expire hpoint _), trivial⟩
    next budget _ =>
      dsimp only
      split
      next hrun =>
        exact ComesTo.attempt wake hpoint hQ (hstage.change h.pending (.reattempt hpoint hrun))
      next hrun =>
        let e := t.execution.observe wake.moment wake.cancelled
        have hover : e.isRunning = false := by simpa using hrun
        refine rests_settle wake hpoint { t with budget, execution := e } h.pending ?_ nofun
        -- The cancellation is noticed already when the snapshot is written.
        dsimp only
        rw [Execution.observe_of_not_isRunning hover]
        exact hstage.changes.tail (.halt hover)

theorem ComesTo.start (hQ : WorksWith engine f Q)
    (h : ReflTransGen (Run.Change engine f Q wake.moment wake.cancelled) s
      ⟨.between, t.execution, t.trace⟩) (hn : n ∈ f.nodes) (budget : Budget) :
    (t.start engine f wake n budget).Rests engine f Q wake.moment wake.cancelled s := by
  have hready : ComesTo engine f Q wake.moment wake.cancelled s .between
      { t with pending := [n], budget } :=
    ⟨List.cons_subset.mpr ⟨hn, List.nil_subset _⟩, h⟩
  exact hready.advance wake hQ

end Traversal

/-! ## Runs -/

/-- What a run learns at each of its waits: a wake, and the manager as it is then. -/
abbrev Course := Nat → Wake × Manager

namespace Run

/-- How a run that is over ended: it was refused, or there was no entry, or by its walk. -/
def outcome (r : Run) : Except EngineFault Unit :=
  match r.token, r.funnel.entry?, r.walk.point with
  | none, _, _ => .error (.alreadyActive r.execution.id)
  | some _, none, _ => .error (.noEntry r.funnel.id)
  | some _, some _, .ended outcome => outcome
  | some _, some _, _ => .ok ()

/-- The stage of a run that stands still. -/
def stage (r : Run) : Stage :=
  match r.phase with
  | .opening => .opening
  | .walking => r.walk.point.stage
  | .closing | .returned => .settled r.outcome

/-- The stage of a run, with its execution and what could be seen until now. -/
def standing (r : Run) : Standing :=
  ⟨r.stage, r.execution, r.walk.trace⟩

/-- A wake, with the cancellation that a run with a token sees. -/
def hears (r : Run) (wake : Wake) (manager : Manager) : Wake :=
  { wake with cancelled := r.isCancelled manager }

variable (engine : Engine)

/-- A run after so many of its waits. -/
def after (r : Run) (course : Course) : Nat → Run
  | 0 => r
  | count + 1 => ((r.after course count).resume engine (course count).1 (course count).2).1

@[simp] theorem after_zero (r : Run) (course : Course) : r.after engine course 0 = r := rfl

@[simp] theorem after_succ (r : Run) (course : Course) (count : Nat) :
    r.after engine course (count + 1) =
      ((r.after engine course count).resume engine (course count).1 (course count).2).1 := rfl

/-- What a run keeps from each wait to the next it keeps for good. -/
theorem after_keeps {P : Run → Prop} {r : Run}
    (hkeep : ∀ r wake manager, P r → P (r.resume engine wake manager).1) (h : P r)
    (course : Course) (count : Nat) : P (r.after engine course count) := by
  induction count with
  | zero => exact h
  | succ count ih => exact hkeep _ (course count).1 (course count).2 ih

variable (f : Funnel) (Q : Node → Task → Prop)

/-- A run through a funnel, before which only nodes of the funnel lie; it has its token and its
entry as long as it is under way, and is settled as soon as its walk has ended. -/
structure BelongsTo (r : Run) : Prop where
  funnel : r.funnel = f
  pending : r.walk.pending ⊆ f.nodes
  token : r.phase = .opening ∨ r.phase = .walking → r.token.isSome = true
  entry : r.phase = .walking → f.entry?.isSome = true
  point : r.phase = .walking → r.walk.point.BelongsTo engine f Q ∧
    ∀ outcome, r.walk.point ≠ .ended outcome

/-- A run that changes have brought to where it stands. -/
structure Rests (moment : Moment) (cancelled : Bool) (s : Standing) (r : Run) : Prop
    extends r.BelongsTo engine f Q where
  changes : ReflTransGen (Change engine f Q moment cancelled) s r.standing

variable {engine f Q} {moment : Moment} {cancelled : Bool} {s : Standing} {r : Run}

/-- How a run ended is not changed by settling it. -/
theorem outcome_close (r : Run) (moment : Moment) (outcome : Except EngineFault Unit)
    (manager : Manager) : (r.close moment outcome manager).1.outcome = r.outcome := by
  have hid : (r.close moment outcome manager).1.execution.id = r.execution.id :=
    (r.execution.keeps_settle moment outcome).id
  simp only [Run.outcome, hid]
  rfl

/-- A run that has ended is settled at once. -/
theorem rests_close (hfunnel : r.funnel = f) (hpending : r.walk.pending ⊆ f.nodes)
    {outcome : Except EngineFault Unit} (houtcome : r.outcome = outcome)
    (h : ReflTransGen (Change engine f Q moment cancelled) s
      ⟨.ended outcome, r.execution, r.walk.trace⟩) (manager : Manager) :
    (r.close moment outcome manager).1.Rests engine f Q moment cancelled s := by
  refine ⟨⟨hfunnel, hpending, nofun, nofun, nofun⟩, ?_⟩
  have hstanding : (r.close moment outcome manager).1.standing =
      ⟨.settled outcome, r.execution.settle moment outcome,
        r.walk.trace ++ [.snapshot (r.execution.settle moment outcome)]⟩ := by
    rw [standing, stage, outcome_close, houtcome]
    rfl
  rw [hstanding]
  exact h.tail .settle

/-- A run that goes on with a walk. -/
theorem rests_follow (hfunnel : r.funnel = f) (htoken : r.token.isSome = true)
    (hentry : f.entry?.isSome = true) {walk : Traversal}
    (h : walk.Rests engine f Q moment cancelled s) (manager : Manager) :
    (r.follow moment walk manager).1.Rests engine f Q moment cancelled s := by
  have hpoint := h.point
  have hchanges := h.changes
  unfold follow
  dsimp only
  split
  next outcome hp =>
    rw [hp] at hchanges
    let r' : Run := { r with phase := .walking, walk }
    refine rests_close (r := r') hfunnel h.pending ?_ hchanges manager
    obtain ⟨token, htoken⟩ := Option.isSome_iff_exists.mp htoken
    obtain ⟨entry, hentry⟩ := Option.isSome_iff_exists.mp (hfunnel ▸ hentry)
    simp only [Run.outcome, r', htoken, hentry, hp]
  next hp => exact ⟨⟨hfunnel, h.pending, fun _ => htoken, fun _ => hentry,
      fun _ => ⟨hpoint, hp⟩⟩, hchanges⟩

/-- **From one wait of a run to the next there are only changes.** -/
theorem BelongsTo.resume (hQ : WorksWith engine f Q) (h : r.BelongsTo engine f Q) (wake : Wake)
    (manager : Manager) : (r.resume engine wake manager).1.Rests engine f Q wake.moment
      (r.isCancelled manager) r.standing := by
  unfold Run.resume
  dsimp only
  split
  next hphase =>
    have htoken := h.token (.inl hphase)
    have hstanding : r.standing = ⟨.opening, r.execution, r.walk.trace⟩ := by
      rw [standing, stage, hphase]
    rw [h.funnel, hstanding]
    split
    next hentry =>
      refine rests_close h.funnel h.pending ?_ (.single (.noEntry hentry)) manager
      obtain ⟨token, htoken⟩ := Option.isSome_iff_exists.mp htoken
      simp only [outcome, htoken, h.funnel, hentry]
    next n hentry =>
      have hsome : f.entry?.isSome = true := by rw [hentry]; rfl
      exact rests_follow h.funnel htoken hsome (Traversal.ComesTo.start (hears r wake manager) hQ
        (.single (.setOut hsome)) (Funnel.mem_of_entry? hentry) _) manager
  next hphase =>
    have hstanding : r.standing = r.walk.standing := by
      rw [standing, stage, hphase]
      rfl
    rw [h.funnel, hstanding]
    obtain ⟨hpoint, -⟩ := h.point hphase
    exact rests_follow h.funnel (h.token (.inr hphase)) (h.entry hphase)
      (Traversal.Rests.resume (hears r wake manager) hQ ⟨⟨h.pending, .refl⟩, hpoint⟩) manager
  next hphase =>
    refine ⟨⟨h.funnel, h.pending, nofun, nofun, nofun⟩, ?_⟩
    have hstanding : r.standing = standing { r with phase := .returned } := by
      rw [standing, stage, hphase]
      rfl
    rw [hstanding]
  next hphase => exact ⟨h, .refl⟩

/-- Before a run waits for the first time there are only changes as well. -/
theorem rests_start (moment : Moment) {call : Call} (hcall : call.funnel = f) (manager : Manager) :
    (Run.start moment call manager).1.Rests engine f Q moment false
      ⟨.opening, .ofCall moment call, []⟩ := by
  unfold Run.start
  dsimp only
  split
  next => exact ⟨⟨hcall, List.nil_subset _, fun _ => rfl, nofun, nofun⟩, .single .register⟩
  next fault hregister =>
    have hfault : fault = .alreadyActive (Execution.ofCall moment call).id := by
      rw [Manager.register] at hregister
      split at hregister
      next => exact (Except.error.inj hregister).symm
      next => cases hregister
    subst hfault
    exact rests_close hcall (List.nil_subset _) rfl (.single .refuse) manager

/-- What every change keeps is kept by any number of them. -/
theorem Change.keeps_all {P : Standing → Prop}
    (hkeep : ∀ s s', Change engine f Q moment cancelled s s' → P s → P s') {s' : Standing}
    (h : ReflTransGen (Change engine f Q moment cancelled) s s') (hs : P s) : P s' := by
  induction h with
  | refl => exact hs
  | tail _ hstep ih => exact hkeep _ _ hstep ih

/-- A run that was started for a call, and has gone on after some of its waits. -/
inductive ComesFrom (engine : Engine) (moment : Moment) (call : Call) : Run → Prop
  | start (manager : Manager) : ComesFrom engine moment call (Run.start moment call manager).1
  | resume {r : Run} (h : ComesFrom engine moment call r) (wake : Wake) (manager : Manager) :
    ComesFrom engine moment call (r.resume engine wake manager).1

namespace ComesFrom

variable {call : Call}

theorem after (h : r.ComesFrom engine moment call) (course : Course) (count : Nat) :
    (r.after engine course count).ComesFrom engine moment call :=
  after_keeps engine (fun _ wake manager hr => .resume hr wake manager) h course count

/-- Only nodes of the funnel lie before a run, however far it has come. -/
theorem belongsTo (h : r.ComesFrom engine moment call) (hQ : WorksWith engine f Q)
    (hcall : call.funnel = f) : r.BelongsTo engine f Q := by
  induction h with
  | start manager => exact (rests_start moment hcall manager).toBelongsTo
  | resume _ wake manager ih => exact (ih.resume hQ wake manager).toBelongsTo

/-- **What every change keeps lasts through a run.** -/
theorem standing {P : Standing → Prop} (h : r.ComesFrom engine moment call)
    (hQ : WorksWith engine f Q) (hcall : call.funnel = f)
    (hkeep : ∀ moment cancelled s s', Change engine f Q moment cancelled s s' → P s → P s')
    (hstart : P ⟨.opening, .ofCall moment call, []⟩) : P r.standing := by
  induction h with
  | start manager =>
    have hrests : (Run.start moment call manager).1.Rests engine f Q moment false
        ⟨.opening, .ofCall moment call, []⟩ := rests_start moment hcall manager
    exact Change.keeps_all (hkeep _ _) hrests.changes hstart
  | resume h wake manager ih =>
    exact Change.keeps_all (hkeep _ _) ((h.belongsTo hQ hcall).resume hQ wake manager).changes ih

end ComesFrom

end Run

end Outreach
