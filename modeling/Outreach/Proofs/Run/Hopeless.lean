import Outreach.Proofs.Run.Retries

/-!
# Nodes that always fail

A run that comes to a node whose executor always reports a failure does not get past it: it tries the
node until the errors against it are one more than the limit, and fails (`Run.IsStuck`). With the
rule for single failures this says how often nodes are tried (`Run.retries_exact`).
-/

namespace Outreach

/-- Work that comes to a failure, whatever the replies are. -/
inductive Task.Fails : Task → Prop
  | done {result : ActionResult} (h : result.success = false) : Fails (.done result)
  | sleep {time : Nat} {next : Instant → Task} (h : ∀ now, (next now).Fails) :
    Fails (.sleep time next)
  | ask {request : Request} {next : Instant → Reply request → Task}
    (h : ∀ now reply, (next now reply).Fails) : Fails (.ask request next)

theorem Task.Fails.continueTask {task : Task} (h : task.Fails) (wake : Wake) :
    (Traversal.continueTask task wake).Fails := by
  cases h with
  | done h => exact .done h
  | sleep h => exact h wake.moment.now
  | ask h => exact h wake.moment.now (wake.reply _)

/-- A node whose executor always reports a failure. -/
def Node.AlwaysFails (engine : Engine) (n : Node) : Prop :=
  ∃ x, engine.registry.executor? n.type = some x ∧ ∀ now e, (x.perform now n e).Fails

namespace Traversal

section

variable (n : Node) (before : List Node) (start : Nat)

/-- After others were tried, a walk has tried only this node: as often as errors were recorded against
it since then, and so many times more. -/
def HasTried (more : Nat) (t : Traversal) : Prop :=
  ∃ tries, t.tried = before ++ List.replicate tries n ∧
    tries + start = t.execution.errorsAt n.id + more

/-- A walk that does not get past a node. -/
inductive IsStuck (limits : Limits) (t : Traversal) : Prop
  | working {isExempt : Bool} {task : Task} (hpoint : t.point = .working n isExempt task)
      (htask : task.Fails) (htried : t.HasTried n before start 1)
      (hbound : t.execution.errorsAt n.id ≤ limits.retries)
  | pausing (hpoint : t.point = .pausing n) (htried : t.HasTried n before start 0)
      (hbound : t.execution.errorsAt n.id ≤ limits.retries)
  | ended {fault : EngineFault} (hpoint : t.point = .ended (.error fault))
      (htried : t.HasTried n before start 0)
      (hbound : t.execution.errorsAt n.id = limits.retries + 1)

end

variable {engine : Engine} {f : Funnel} {t t' : Traversal} {wake : Wake} {n : Node}
  {before : List Node} {start : Nat}

theorem HasTried.congr {more : Nat} (h : t.HasTried n before start more) (htried : t'.tried = t.tried)
    (herrors : t'.execution.errorsAt n.id = t.execution.errorsAt n.id) :
    t'.HasTried n before start more := by
  rw [HasTried, htried, herrors]
  exact h

/-- A failure makes a walk try the node again, until there is one more than the limit. -/
theorem HasTried.isStuck_fail (h : t.HasTried n before start 1)
    (hbound : t.execution.errorsAt n.id ≤ engine.limits.retries) {fault : EngineFault}
    (hfault : fault.isRetryable = true) :
    (t.fail engine wake n fault).IsStuck n before start engine.limits := by
  obtain ⟨entry, herrors, hnode, -, -⟩ := t.errors_fail engine wake n fault
  have hcount : (t.fail engine wake n fault).execution.errorsAt n.id =
      t.execution.errorsAt n.id + 1 := by
    simp [Execution.errorsAt, herrors, hnode, List.countP_append]
  have hpoint := t.point_fail engine wake n fault
  obtain ⟨tries, htried, htries⟩ := h
  have htried : (t.fail engine wake n fault).HasTried n before start 0 :=
    ⟨tries, (tried_fail fault).trans htried, by omega⟩
  rw [Limits.allowsRetry, hfault, hcount] at hpoint
  by_cases hmore : t.execution.errorsAt n.id + 1 ≤ engine.limits.retries
  · refine .pausing ?_ htried (hcount ▸ hmore)
    simpa [hmore] using hpoint
  · have hended : (t.fail engine wake n fault).point = .ended (.error fault) := by
      simpa [hmore] using hpoint
    exact .ended hended htried (by omega)

theorem HasTried.isStuck_work (h : t.HasTried n before start 1)
    (hbound : t.execution.errorsAt n.id ≤ engine.limits.retries) (isExempt : Bool) {task : Task}
    (htask : task.Fails) :
    (t.work engine f wake n isExempt task).IsStuck n before start engine.limits := by
  cases htask with
  | @done result hfail =>
    have htaken : HasTried n before start 1
        { t with execution := t.execution.take wake.moment n result } := h
    have hconclude : t.work engine f wake n isExempt (.done result) = fail engine
        { t with execution := t.execution.take wake.moment n result } wake n (result.fault n) := by
      unfold work conclude
      dsimp only
      rw [hfail]
      rfl
    rw [hconclude]
    exact htaken.isStuck_fail hbound rfl
  | sleep hnext => exact .working rfl (.sleep hnext) h hbound
  | ask hnext => exact .working rfl (.ask hnext) h hbound

/-- Another attempt at the node gets no further. -/
theorem HasTried.isStuck_attempt (h : t.HasTried n before start 0)
    (hbound : t.execution.errorsAt n.id ≤ engine.limits.retries) (hn : n.AlwaysFails engine) :
    (t.attempt engine f wake n).IsStuck n before start engine.limits := by
  obtain ⟨x, hx, hfails⟩ := hn
  let e := t.execution.enter wake.moment n
  let entered := see { t with execution := e } (.attempt n e)
  have hentered : entered.HasTried n before start 1 := by
    obtain ⟨tries, htried, htries⟩ := h
    have hmore : entered.tried = t.tried ++ [n] := Sighting.filterMap_tried?_attempt ..
    refine ⟨tries + 1, ?_, ?_⟩
    · rw [hmore, htried, List.replicate_succ', List.append_assoc]
    · change tries + 1 + start = t.execution.errorsAt n.id + 1
      omega
  unfold attempt
  dsimp only
  rw [hx]
  exact hentered.isStuck_work hbound x.isExempt (hfails _ _)

/-- A walk that is stuck stays so if its time suffices and it is not cancelled. -/
theorem IsStuck.resume (h : t.IsStuck n before start engine.limits) (hn : n.AlwaysFails engine)
    (hrun : (∀ outcome, t.point ≠ .ended outcome) → t.execution.isRunning = true)
    (hfits : (t.charge wake.spent).isSome = true) (hcalm : wake.cancelled = false) :
    (t.resume engine f wake).IsStuck n before start engine.limits := by
  obtain ⟨budget, hcharge⟩ := Option.isSome_iff_exists.mp hfits
  cases h with
  | @working isExempt task hpoint htask htried hbound =>
    have hresume : t.resume engine f wake =
        { t with budget }.work engine f wake n isExempt (continueTask task wake) := by
      unfold Traversal.resume
      rw [hpoint]
      dsimp only
      rw [hcharge]
    have hcharged : HasTried n before start 1 { t with budget } := htried
    rw [hresume]
    exact hcharged.isStuck_work hbound isExempt (htask.continueTask wake)
  | pausing hpoint htried hbound =>
    have hcharged : HasTried n before start 0 { t with budget } := htried
    rw [resume_of_fits _ _ hpoint hcharge (hrun fun _ hended => by simp [hpoint] at hended) hcalm]
    exact hcharged.isStuck_attempt hbound hn
  | ended hpoint htried hbound =>
    have hresume : t.resume engine f wake = t := by
      unfold Traversal.resume
      rw [hpoint]
    rw [hresume]
    exact .ended hpoint htried hbound

end Traversal

namespace Run

/-- A run that does not get past a node. -/
structure IsStuck (engine : Engine) (n : Node) (before : List Node) (start : Nat) (r : Run) : Prop where
  walk : r.walk.IsStuck n before start engine.limits
  token : r.token.isSome = true
  entry : r.funnel.entry?.isSome = true
  phase : r.phase = .walking ∨ r.IsClosed ∧ r.execution.errorsAt n.id = engine.limits.retries + 1

variable {engine : Engine} {r : Run} {moment : Moment} {call : Call} {n : Node}
  {before : List Node} {start : Nat}

/-- A run that goes on with a walk which is stuck is stuck itself. -/
theorem isStuck_follow (htoken : r.token.isSome = true) (hentry : r.funnel.entry?.isSome = true)
    {walk : Traversal} (h : walk.IsStuck n before start engine.limits) (moment : Moment)
    (manager : Manager) : (r.follow moment walk manager).1.IsStuck engine n before start := by
  cases h with
  | working hpoint htask htried hbound =>
    rw [follow_of_ne_ended r fun outcome hended => by simp [hpoint] at hended]
    exact ⟨.working hpoint htask htried hbound, htoken, hentry, .inl rfl⟩
  | pausing hpoint htried hbound =>
    rw [follow_of_ne_ended r fun outcome hended => by simp [hpoint] at hended]
    exact ⟨.pausing hpoint htried hbound, htoken, hentry, .inl rfl⟩
  | @ended fault hpoint htried hbound =>
    have hsettled := (walk.execution.errorsAt_settle moment (.error fault) n.id).trans hbound
    rw [follow_of_ended r hpoint]
    refine ⟨.ended hpoint (htried.congr ?_ ?_) hsettled, htoken, hentry, .inr ⟨.inl rfl, hsettled⟩⟩
    · exact Traversal.tried_see_snapshot _ _
    · exact walk.execution.errorsAt_settle moment (.error fault) n.id

/-- A run that is stuck, and not over, is running. -/
theorem IsStuck.isRunning (h : r.IsStuck engine n before start)
    (hr : r.ComesFrom engine moment call) (hphase : r.phase = .walking)
    (hopen : ∀ outcome, r.walk.point ≠ .ended outcome) : r.walk.execution.isRunning = true := by
  have horder := hr.isGrown.inOrder
  rw [Standing.IsInOrder, Run.standing, stage, hphase] at horder
  cases h.walk with
  | working hpoint =>
    rw [hpoint] at horder
    exact horder.running
  | pausing hpoint =>
    rw [hpoint] at horder
    exact horder.running
  | ended hpoint => exact absurd hpoint (hopen _)

/-- A run that is stuck stays so if its time suffices and it is not cancelled. -/
theorem IsStuck.resume (h : r.IsStuck engine n before start) (hr : r.ComesFrom engine moment call)
    (hn : n.AlwaysFails engine) {wake : Wake} {manager : Manager}
    (hfits : (r.walk.charge wake.spent).isSome = true) (hcalm : r.isCancelled manager = false) :
    (r.resume engine wake manager).1.IsStuck engine n before start := by
  have hbelongs := hr.belongsTo (WorksWith.trivial engine call.funnel) rfl
  rcases h.phase with hphase | ⟨hclosed, hbound⟩
  · have hwalk : (r.walk.resume engine call.funnel (r.hears wake manager)).IsStuck n before start
        engine.limits := h.walk.resume hn (h.isRunning hr hphase) hfits hcalm
    rw [hbelongs.resume_of_walking hphase]
    exact isStuck_follow h.token h.entry hwalk _ _
  · have hsame := hclosed.walk_resume engine wake manager
    have hfunnel : (r.resume engine wake manager).1.funnel = r.funnel :=
      ((hr.resume wake manager).belongsTo (WorksWith.trivial ..) rfl).funnel.trans hbelongs.funnel.symm
    refine ⟨hsame ▸ h.walk, (token_resume engine wake r manager).symm ▸ h.token,
      hfunnel.symm ▸ h.entry, .inr ⟨hclosed.resume engine wake manager, ?_⟩⟩
    rw [Run.execution, hsame]
    exact hbound

/-- A run that tries a node which always fails is stuck from then on. -/
theorem isStuck_of_tried (hr : r.ComesFrom engine moment call) (hn : n.AlwaysFails engine)
    {wake : Wake} {manager : Manager}
    (htried : (r.resume engine wake manager).1.tried = r.tried ++ [n]) :
    (r.resume engine wake manager).1.IsStuck engine n r.tried (r.execution.errorsAt n.id) := by
  have hbelongs := hr.belongsTo (WorksWith.trivial engine call.funnel) rfl
  have hnew : (r.resume engine wake manager).1.tried ≠ r.tried := by simp [htried]
  by_cases hunder : r.IsUnderWay
  case neg =>
    have hwalk := (isClosed_of_not_isUnderWay hunder).walk_resume engine wake manager
    exact absurd (congrArg Traversal.tried hwalk) hnew
  rcases hbelongs.steps hunder wake manager with ⟨-, hclose⟩ | ⟨hentry, walk, hfollow, hsteps, -⟩
  · exact absurd (hclose ▸ tried_close ..) hnew
  rw [hfollow, tried_follow] at htried
  obtain ⟨u, hattempt, herrors, hsame⟩ := hsteps.exists_attempt htried
  have hcount : u.execution.errorsAt n.id = r.execution.errorsAt n.id :=
    Execution.errorsAt_congr herrors n.id
  have hsofar : u.HasTried n r.tried (r.execution.errorsAt n.id) 0 :=
    ⟨0, by rw [hsame, List.replicate_zero, List.append_nil]; rfl, by rw [hcount, Nat.zero_add]; rfl⟩
  have hbound : u.execution.errorsAt n.id ≤ engine.limits.retries :=
    hcount.trans_le (hr.errorsAt_le hunder n.id)
  rw [hfollow, hattempt]
  exact isStuck_follow (hbelongs.token hunder) (hbelongs.funnel ▸ hentry)
    (hsofar.isStuck_attempt hbound hn) _ _

/-! ## The end of a run that is stuck -/

/-- A run whose waits all fit into its time, and that nobody cancels. -/
def IsUndisturbed (engine : Engine) (course : Course) (r : Run) : Prop :=
  ∀ wait, ((r.after engine course wait).walk.charge (course wait).1.spent).isSome = true ∧
    (r.after engine course wait).isCancelled (course wait).2 = false

variable {course : Course}

theorem IsUndisturbed.after (h : r.IsUndisturbed engine course) (count : Nat) :
    (r.after engine course count).IsUndisturbed engine fun wait => course (count + wait) := by
  intro wait
  rw [← after_add]
  exact h (count + wait)

theorem IsStuck.after (h : r.IsStuck engine n before start) (hr : r.ComesFrom engine moment call)
    (hn : n.AlwaysFails engine) (hcalm : r.IsUndisturbed engine course) (count : Nat) :
    (r.after engine course count).IsStuck engine n before start := by
  induction count with
  | zero => exact h
  | succ count ih => exact ih.resume (hr.after course count) hn (hcalm count).1 (hcalm count).2

/-- The tries of a run that is stuck are bounded. -/
theorem IsStuck.attempts_le (h : r.IsStuck engine n before start) :
    r.attempts ≤ before.length + (engine.limits.retries + 1) := by
  have hbounded {more : Nat} (htried : r.walk.HasTried n before start more)
      (hle : r.walk.execution.errorsAt n.id + more ≤ engine.limits.retries + 1) :
      r.attempts ≤ before.length + (engine.limits.retries + 1) := by
    obtain ⟨tries, htried, htries⟩ := htried
    have hlength : r.attempts = before.length + tries := by
      rw [← length_tried, tried, htried, List.length_append, List.length_replicate]
    omega
  cases h.walk with
  | working _ _ htried hbound => exact hbounded htried (Nat.succ_le_succ hbound)
  | pausing _ htried hbound => exact hbounded htried (Nat.le_succ_of_le hbound)
  | ended _ htried hbound => exact hbounded htried hbound.le

/-- What a run that did not get past a node has come to. -/
structure IsBeaten (engine : Engine) (n : Node) (before : List Node) (start : Nat) (r : Run) :
    Prop where
  failed : r.execution.status = .failed
  errors : r.execution.errorsAt n.id = engine.limits.retries + 1
  tried : r.tried = before ++ List.replicate (engine.limits.retries + 1 - start) n

/-- A run that is stuck and has closed has failed, after one more error than the limit. -/
theorem IsStuck.isBeaten (h : r.IsStuck engine n before start)
    (hr : r.ComesFrom engine moment call) (hclosed : r.IsClosed) :
    r.IsBeaten engine n before start := by
  have herrors : r.execution.errorsAt n.id = engine.limits.retries + 1 :=
    (h.phase.resolve_left fun hphase => hclosed.not_isUnderWay (.inr hphase)).2
  have hexceeds : ¬ r.walk.execution.errorsAt n.id ≤ engine.limits.retries :=
    Nat.not_le.mpr (Nat.lt_of_succ_le herrors.ge)
  cases h.walk with
  | working _ _ _ hbound => exact absurd hbound hexceeds
  | pausing _ _ hbound => exact absurd hbound hexceeds
  | @ended fault hpoint htried hbound =>
    obtain ⟨tries, htried, htries⟩ := htried
    have hsame : tries = engine.limits.retries + 1 - start := by omega
    have houtcome := outcome_of_ended h.token h.entry hpoint
    exact ⟨(hr.endsBy hclosed).failed_iff_fault.mpr ⟨fault, houtcome⟩, herrors, hsame ▸ htried⟩

/-- **A run that does not get past a node returns and has failed.** -/
theorem IsStuck.exists_isBeaten (h : r.IsStuck engine n before start)
    (hr : r.ComesFrom engine moment call) (hn : n.AlwaysFails engine)
    (hcalm : r.IsUndisturbed engine course) :
    ∃ last, ∀ more, (r.after engine course (last + more)).phase = .returned ∧
      (r.after engine course (last + more)).IsBeaten engine n before start := by
  have hend : r.AttemptsEnd engine course :=
    ⟨_, fun count => (h.after hr hn hcalm count).attempts_le⟩
  obtain ⟨last, hreturned⟩ := hr.returns hend
  refine ⟨last, fun more => ?_⟩
  rw [after_add_of_returned hreturned]
  exact ⟨hreturned, (h.after hr hn hcalm last).isBeaten (hr.after course last) (.inr hreturned)⟩

/-- If no node with the identifier was tried before, then it was tried as often as it may be. -/
theorem IsBeaten.triesOf_eq (h : r.IsBeaten engine n before start)
    (hfirst : triesOf before n.id = 0) (hstart : start = 0) :
    triesOf r.tried n.id = engine.limits.retries + 1 := by
  have htries (tries : Nat) : triesOf (List.replicate tries n) n.id = tries := by
    simp [triesOf, List.countP_replicate]
  rw [h.tried, hstart, triesOf, List.countP_append, ← triesOf, ← triesOf, hfirst, htries, Nat.zero_add,
    Nat.sub_zero]

/-! ## The rule -/

/-- **Nodes are tried again as often as the limit allows, and no more**, whatever the funnel, the
executors, the durations and the cancellations are. At most one error more than the limit is ever
recorded against an identifier, counted over all visits. Whatever is recorded against a node between
two waits is answered by the rule: the node is tried again exactly if its executor reported the
failure, the count including it is within the limit, the pause fits into what is left of the time and
no cancellation is seen after it; and if the kind of error or the count forbids another attempt, the
run has failed. So a node that always fails, in a run whose waits fit into its time and that nobody
cancels, is tried until there is one error more than the limit: exactly one more time than the limit,
if no node with its identifier was tried before. -/
theorem retries_exact (engine : Engine) (moment : Moment) (call : Call) (manager : Manager)
    (course : Course) :
    let r := (Run.start moment call manager).1
    (∀ count id, (r.after engine course count).execution.errorsAt id ≤ engine.limits.retries + 1) ∧
    (∀ count, ∀ entry ∈ (r.after engine course (count + 1)).execution.errors.drop
        (r.after engine course count).execution.errors.length,
      ∀ id, entry.node = some id → ∃ n ∈ call.funnel.nodes, n.id = id ∧
        (r.after engine course (count + 1)).Answers engine
          (fun wait => course (count + 1 + wait)) n entry) ∧
    ∀ n, n.AlwaysFails engine → r.IsUndisturbed engine course →
      ∀ count, (r.after engine course (count + 1)).tried = (r.after engine course count).tried ++ [n] →
        ∃ last, ∀ more, (r.after engine course (last + more)).phase = .returned ∧
          (r.after engine course (last + more)).IsBeaten engine n (r.after engine course count).tried
            ((r.after engine course count).execution.errorsAt n.id) ∧
          (triesOf (r.after engine course count).tried n.id = 0 →
            triesOf (r.after engine course (last + more)).tried n.id = engine.limits.retries + 1) := by
  intro r
  have hr (count : Nat) : (r.after engine course count).ComesFrom engine moment call :=
    .after (.start manager) course count
  refine ⟨fun count id => ?_, fun count entry hentry id hid => ?_,
    fun n hn hcalm count htried => ?_⟩
  · exact ((hr count).isCounted.errors id).trans (Nat.add_le_add_left (Stage.excess_le_one _) _)
  · exact (hr count).answers _ _ _ hentry hid
  · have hstuck := isStuck_of_tried (hr count) hn htried
    obtain ⟨last, hlast⟩ :=
      hstuck.exists_isBeaten (hr (count + 1)) hn (hcalm.after (count + 1))
    refine ⟨count + 1 + last, fun more => ?_⟩
    obtain ⟨hreturned, hbeaten⟩ := hlast more
    rw [Nat.add_assoc, after_add]
    refine ⟨hreturned, hbeaten, fun hfirst => hbeaten.triesOf_eq hfirst ?_⟩
    have htries := (hr count).isCounted.attempts n.id
    exact Nat.le_zero.mp ((Nat.le_add_right _ _).trans (htries.trans hfirst.le))

end Run

/-- A condition that does not say what it looks at. -/
def Funnel.mute : Node where
  id := "a"
  type := .condition
  name := ""
  settings := .null
  connections := []
  position := none

/-- Nothing but a condition that does not say what it looks at. -/
def Funnel.speechless : Funnel where
  id := "speechless"
  name := ""
  description := none
  version := 1
  nodes := [mute]
  tags := []
  metadata := []

theorem Funnel.alwaysFails_mute (limits : Limits) : mute.AlwaysFails ⟨.builtIn [], limits⟩ :=
  ⟨_, rfl, fun _ _ => .done rfl⟩

/-- A wait that takes no time fits. -/
theorem Traversal.isSome_charge_zero (t : Traversal) : (t.charge 0).isSome = true := by
  unfold charge Budget.charge
  split
  next =>
    split
    next => rfl
    next => rw [if_pos (Nat.zero_le _)]; rfl
  next => rfl

theorem Run.speechless_tried_four_times :
    Funnel.mute.AlwaysFails ⟨.builtIn [], .standard⟩ ∧
      ∀ (triggerId : Option String) (vars : Variables) (moment : Moment) (wakes : Nat → Wake),
        ∃ last, ∀ more,
          let r := (Run.start moment ⟨.speechless, triggerId, vars⟩ (.create 1)).1.after
            ⟨.builtIn [], .standard⟩ (fun wait => ({ wakes wait with spent := 0 }, .create 1))
            (last + more)
          r.phase = .returned ∧ r.execution.status = .failed ∧ triesOf r.tried "a" = 4 := by
  refine ⟨Funnel.alwaysFails_mute _, fun triggerId vars moment wakes => ?_⟩
  let engine : Engine := ⟨.builtIn [], .standard⟩
  let call : Call := ⟨.speechless, triggerId, vars⟩
  let course : Course := fun wait => ({ wakes wait with spent := 0 }, .create 1)
  have hcalm : (Run.start moment call (.create 1)).1.IsUndisturbed engine course :=
    fun wait => ⟨Traversal.isSome_charge_zero _, Option.any_false⟩
  let r := (Run.start moment call (.create 1)).1
  have hfirst : (r.after engine course 1).tried = r.tried ++ [Funnel.mute] :=
    tried_resume_of_opening rfl rfl rfl (course 0).1 (hcalm 0).2
  obtain ⟨-, -, hrule⟩ := retries_exact engine moment call (.create 1) course
  obtain ⟨last, hlast⟩ := hrule Funnel.mute (Funnel.alwaysFails_mute _) hcalm 0 hfirst
  refine ⟨last, fun more => ?_⟩
  obtain ⟨hreturned, hbeaten, htries⟩ := hlast more
  exact ⟨hreturned, hbeaten.failed, htries rfl⟩

end Outreach
