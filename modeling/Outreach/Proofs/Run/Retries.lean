import Outreach.Proofs.Run.Ending

/-!
# How often a node is tried again

The errors against a node are counted over the whole run, whichever visit they come from, and never
get beyond the limit by more than one (`Standing.IsCounted`). Whether a node that fails is tried
again hangs on this count, on the time that is left and on cancellations, and on nothing else
(`Run.retries_exact`).
-/

namespace Outreach

/-! ## Counting -/

namespace Run.Stage

/-- The node that a stage is about. -/
def node? : Stage → Option Node
  | .trying n | .tried n _ | .pausing n => some n
  | .opening | .between | .ended _ | .settled _ => none

/-- The attempts at an identifier that have neither failed nor gone well yet. -/
def underWay (id : String) : Stage → Nat
  | .trying n | .tried n _ => if n.id = id then 1 else 0
  | .opening | .between | .pausing _ | .ended _ | .settled _ => 0

/-- By how much the errors against a node may exceed the limit: once, when this has ended the run. -/
def excess : Stage → Nat
  | .ended (.error _) | .settled _ => 1
  | .opening | .between | .trying _ | .tried _ _ | .pausing _ | .ended (.ok ()) => 0

theorem excess_le_one (stage : Stage) : stage.excess ≤ 1 := by
  unfold excess
  split <;> decide

end Run.Stage

/-- The nodes that could be seen to be tried. -/
def Standing.tried (s : Standing) : List Node :=
  s.trace.filterMap Sighting.tried?

/-- The attempts at nodes with an identifier. -/
def triesOf (nodes : List Node) (id : String) : Nat :=
  nodes.countP fun n => n.id == id

theorem triesOf_concat (nodes : List Node) (n : Node) (id : String) :
    triesOf (nodes ++ [n]) id = triesOf nodes id + if n.id = id then 1 else 0 := by
  simp [triesOf, List.countP_append, List.countP_singleton]

/-- A run whose errors against nodes are within the limit and were each preceded by an attempt. -/
structure Standing.IsCounted (f : Funnel) (limits : Limits) (s : Standing) : Prop where
  nodes : s.tried ⊆ f.nodes
  last : ∀ n, s.stage.node? = some n → s.tried.getLast? = some n
  errors : ∀ id, s.execution.errorsAt id ≤ limits.retries + s.stage.excess
  attempts : ∀ id, s.execution.errorsAt id + s.stage.underWay id ≤ triesOf s.tried id

namespace Standing.IsCounted

variable {f : Funnel} {limits : Limits} {s s' : Standing} {e e' : Execution}
  {trace : List Sighting} {moment : Moment} {n : Node} {fault : EngineFault}

/-- Nothing is tried and no error recorded. -/
theorem rest {before after : Run.Stage} {trace' : List Sighting}
    (h : IsCounted f limits ⟨before, e, trace⟩)
    (hnode : after.node? = none ∨ after.node? = before.node?)
    (hexcess : before.excess ≤ after.excess)
    (hunder : ∀ id, after.underWay id ≤ before.underWay id)
    (htried : trace'.filterMap Sighting.tried? = trace.filterMap Sighting.tried?)
    (herrors : ∀ id, e'.errorsAt id = e.errorsAt id) : IsCounted f limits ⟨after, e', trace'⟩ := by
  obtain ⟨hnodes, hlast, hbound, hattempts⟩ := h
  have htried : tried ⟨after, e', trace'⟩ = tried ⟨before, e, trace⟩ := htried
  refine ⟨htried ▸ hnodes, fun n hn => htried ▸ hlast n ?_, fun id => ?_, fun id => ?_⟩
  · rcases hnode with hnone | hsame
    · exact absurd (hnone.symm.trans hn) (by simp)
    · exact hsame.symm.trans hn
  · exact (herrors id).trans_le ((hbound id).trans (Nat.add_le_add_left hexcess _))
  · rw [htried, herrors id]
    exact (Nat.add_le_add_left (hunder id) _).trans (hattempts id)

/-- A node is tried. -/
theorem attempt (h : s.IsCounted f limits) (hexcess : s.stage.excess = 0)
    (hunder : ∀ id, s.stage.underWay id = 0) (hn : n ∈ f.nodes)
    (herrors : e.errors = s.execution.errors) :
    IsCounted f limits ⟨.trying n, e, s.trace ++ [.attempt n e]⟩ := by
  have htried : tried ⟨.trying n, e, s.trace ++ [.attempt n e]⟩ = s.tried ++ [n] :=
    Sighting.filterMap_tried?_attempt ..
  refine ⟨?_, fun m hm => ?_, fun id => ?_, fun id => ?_⟩
  · rw [htried]
    exact List.append_subset.mpr ⟨h.nodes, List.cons_subset.mpr ⟨hn, List.nil_subset _⟩⟩
  · cases hm
    rw [htried, List.getLast?_concat]
  · have herrors := (Execution.errorsAt_congr herrors id).trans_le (h.errors id)
    rw [hexcess] at herrors
    exact herrors
  · have hattempts := h.attempts id
    rw [hunder, ← Execution.errorsAt_congr herrors id] at hattempts
    rw [htried, triesOf_concat]
    exact Nat.add_le_add_right hattempts _

/-- A node that is tried fails. -/
theorem fail {before after : Run.Stage} (h : IsCounted f limits ⟨before, e, trace⟩)
    (hbefore : before = .trying n ∨ ∃ r, before = .tried n r)
    (hafter : after = .pausing n ∨ ∃ fault, after = .ended (.error fault))
    (herrors : e'.errors = (e.recordFault moment n fault).errors)
    (hbound : e'.errorsAt n.id ≤ limits.retries + after.excess) :
    IsCounted f limits ⟨after, e', trace⟩ := by
  have hcount (id : String) : e'.errorsAt id = e.errorsAt id + if n.id = id then 1 else 0 :=
    (Execution.errorsAt_congr herrors id).trans (e.errorsAt_recordError_some ..)
  have hexcess : before.excess = 0 := by rcases hbefore with rfl | ⟨r, rfl⟩ <;> rfl
  have hunder (id : String) : before.underWay id = if n.id = id then 1 else 0 := by
    rcases hbefore with rfl | ⟨r, rfl⟩ <;> rfl
  have hquiet (id : String) : after.underWay id = 0 := by
    rcases hafter with rfl | ⟨fault, rfl⟩ <;> rfl
  refine ⟨h.nodes, fun m hm => h.last m ?_, fun id => ?_, fun id => ?_⟩
  · rcases hafter with rfl | ⟨fault, rfl⟩
    · rcases hbefore with rfl | ⟨r, rfl⟩ <;> exact hm
    · cases hm
  · by_cases hid : n.id = id
    · exact hid ▸ hbound
    · have hother := h.errors id
      rw [hexcess] at hother
      rw [hcount, if_neg hid]
      exact hother.trans (Nat.add_le_add_left (Nat.zero_le _) _)
  · have hattempts := h.attempts id
    rw [hunder] at hattempts
    rw [hcount, hquiet]
    exact hattempts

/-- A node that is tried fails for good. -/
theorem breakDown {before : Run.Stage} (h : IsCounted f limits ⟨before, e, trace⟩)
    (hbefore : before = .trying n ∨ ∃ r, before = .tried n r) :
    IsCounted f limits ⟨.ended (.error fault), (e.recordFault moment n fault).giveUp moment n fault,
      trace⟩ := by
  refine h.fail hbefore (.inr ⟨fault, rfl⟩) rfl ?_
  have hexcess : before.excess = 0 := by rcases hbefore with rfl | ⟨r, rfl⟩ <;> rfl
  have herrors := h.errors n.id
  rw [hexcess] at herrors
  rw [Execution.errorsAt_congr (Execution.errors_giveUp ..), Execution.recordFault,
    Execution.errorsAt_recordError]
  exact Nat.succ_le_succ herrors

end Standing.IsCounted

namespace Run.Change

open Execution

variable {engine : Engine} {f : Funnel} {Q : Node → Task → Prop} {moment : Moment}
  {cancelled : Bool} {s s' : Standing}

theorem isCounted (h : Run.Change engine f Q moment cancelled s s')
    (hs : s.IsCounted f engine.limits) : s'.IsCounted f engine.limits := by
  have hsnapshot (trace : List Sighting) (e : Execution) :
      (trace ++ [Sighting.snapshot e]).filterMap Sighting.tried? = trace.filterMap Sighting.tried? :=
    Sighting.filterMap_tried?_snapshot trace e
  cases h with
  | register =>
    exact hs.rest (.inl rfl) (Nat.le_refl 0) (fun _ => Nat.le_refl 0) (hsnapshot ..) fun _ => rfl
  | refuse => exact hs.rest (.inl rfl) (Nat.zero_le 1) (fun _ => Nat.le_refl 0) rfl fun _ => rfl
  | noEntry => exact hs.rest (.inl rfl) (Nat.zero_le 1) (fun _ => Nat.le_refl 0) rfl fun _ => rfl
  | setOut => exact hs.rest (.inl rfl) (Nat.le_refl 0) (fun _ => Nat.le_refl 0) rfl fun _ => rfl
  | attempt hn => exact hs.attempt rfl (fun _ => rfl) hn (errors_observe ..)
  | reattempt hn => exact hs.attempt rfl (fun _ => rfl) hn (errors_observe ..)
  | noExecutor => exact hs.breakDown (.inl rfl)
  | timeout => exact hs.breakDown (.inl rfl)
  | take => exact hs.rest (.inr rfl) (Nat.le_refl 0) (fun _ => Nat.le_refl _) rfl fun _ => rfl
  | @retry e _ n r _ _ _ hretry =>
    refine hs.fail (.inr ⟨r, rfl⟩) (.inl rfl) (errors_noteRetry ..) ?_
    rw [errorsAt_congr (errors_noteRetry ..)]
    exact of_decide_eq_true (Bool.and_eq_true_iff.mp hretry).2
  | giveUp => exact hs.breakDown (.inr ⟨_, rfl⟩)
  | finish =>
    exact hs.rest (.inl rfl) (Nat.le_refl 0) (fun _ => Nat.zero_le _) (hsnapshot ..)
      (errorsAt_congr (errors_observe ..))
  | @proceed e _ n r =>
    have herrors : ((f.onward moment n r.nextNode e).2.observe moment cancelled).errors = e.errors := by
      rw [errors_observe, errors_onward]
    exact hs.rest (.inl rfl) (Nat.le_refl 0) (fun _ => Nat.zero_le _) (hsnapshot ..)
      (errorsAt_congr herrors)
  | halt =>
    exact hs.rest (.inl rfl) (Nat.le_refl 0) (fun _ => Nat.le_refl 0) (hsnapshot ..)
      (errorsAt_congr (errors_observe ..))
  | expire => exact hs.rest (.inl rfl) (Nat.zero_le 1) (fun _ => Nat.le_refl 0) rfl fun _ => rfl
  | arrive => exact hs.rest (.inl rfl) (Nat.le_refl 0) (fun _ => Nat.le_refl 0) rfl fun _ => rfl
  | drop =>
    exact hs.rest (.inl rfl) (Nat.le_refl 0) (fun _ => Nat.le_refl 0) rfl
      (errorsAt_congr (errors_observe ..))
  | stop =>
    exact hs.rest (.inl rfl) (Nat.le_refl 0) (fun _ => Nat.le_refl 0) rfl
      (errorsAt_congr (errors_stop ..))
  | settle =>
    exact hs.rest (.inl rfl) (Run.Stage.excess_le_one _) (fun _ => Nat.le_refl 0) (hsnapshot ..)
      (errorsAt_settle _ _ _)

end Run.Change

namespace Run

variable {engine : Engine} {r : Run} {moment : Moment} {call : Call} {n : Node}

theorem ComesFrom.isCounted (h : r.ComesFrom engine moment call) :
    r.standing.IsCounted call.funnel engine.limits := by
  refine h.standing (WorksWith.trivial ..) rfl (fun _ _ _ _ => Change.isCounted) ?_
  exact ⟨List.nil_subset _, fun n hn => absurd hn (Option.some_ne_none n).symm,
    fun _ => Nat.zero_le _, fun _ => Nat.zero_le _⟩

/-- As long as a run is under way, the errors against a node are within the limit. -/
theorem ComesFrom.errorsAt_le (h : r.ComesFrom engine moment call) (hunder : r.IsUnderWay)
    (id : String) : r.execution.errorsAt id ≤ engine.limits.retries := by
  have hbelongs := h.belongsTo (WorksWith.trivial engine call.funnel) rfl
  have hexcess : r.stage.excess = 0 := by
    unfold stage
    rcases hunder with hphase | hphase <;> rw [hphase]
    · rfl
    · cases hpoint : r.walk.point with
      | ended outcome => exact absurd hpoint ((hbelongs.point hphase).2 outcome)
      | saving | working | pausing => rfl
  have herrors := h.isCounted.errors id
  rwa [Run.standing, hexcess] at herrors

/-! ## Failures -/

/-- What a run adds to the errors of its walk concerns no node. -/
theorem errors_follow (r : Run) (moment : Moment) (walk : Traversal) (manager : Manager) :
    ∃ added, (r.follow moment walk manager).1.execution.errors = walk.execution.errors ++ added ∧
      ∀ entry ∈ added, entry.node = none := by
  unfold follow
  dsimp only
  split
  next outcome _ => exact walk.execution.errors_settle moment outcome
  next => exact ⟨[], (List.append_nil _).symm, nofun⟩

theorem errorsAt_follow (r : Run) (moment : Moment) (walk : Traversal) (manager : Manager)
    (id : String) :
    (r.follow moment walk manager).1.execution.errorsAt id = walk.execution.errorsAt id := by
  unfold follow
  dsimp only
  split
  next outcome _ => exact walk.execution.errorsAt_settle moment outcome id
  next => rfl

/-- How a walk ended is how its run ended. -/
theorem outcome_of_ended (htoken : r.token.isSome = true) (hentry : r.funnel.entry?.isSome = true)
    {outcome : Except EngineFault Unit} (hpoint : r.walk.point = .ended outcome) :
    r.outcome = outcome := by
  obtain ⟨token, htoken⟩ := Option.isSome_iff_exists.mp htoken
  obtain ⟨entry, hentry⟩ := Option.isSome_iff_exists.mp hentry
  simp only [Run.outcome, htoken, hentry, hpoint]

/-- Where a run stands when a node has failed on its walk: it waits to try the node again, or it has
failed. -/
def StandsAfter (engine : Engine) (n : Node) (fault : EngineFault) (next : Run) : Prop :=
  if engine.limits.allowsRetry fault (next.execution.errorsAt n.id) then
    next.phase = .walking ∧ next.walk.point = .pausing n
  else next.execution.status = .failed

theorem ComesFrom.standsAfter (h : r.ComesFrom engine moment call) (hunder : r.IsUnderWay)
    (hentry : call.funnel.entry?.isSome = true) {wake seen : Wake} {manager : Manager}
    {t : Traversal} {fault : EngineFault}
    (hfollow : r.resume engine wake manager =
      r.follow wake.moment (t.fail engine seen n fault) manager) :
    (r.resume engine wake manager).1.StandsAfter engine n fault := by
  have hnext : (r.resume engine wake manager).1.ComesFrom engine moment call := h.resume wake manager
  have htoken : (r.resume engine wake manager).1.token.isSome = true := by
    rw [token_resume]
    exact (h.belongsTo (WorksWith.trivial engine call.funnel) rfl).token hunder
  have hfunnel : (r.resume engine wake manager).1.funnel = call.funnel :=
    (hnext.belongsTo (WorksWith.trivial engine call.funnel) rfl).funnel
  have hpoint := t.point_fail engine seen n fault
  rw [StandsAfter]
  rw [hfollow] at hnext htoken hfunnel ⊢
  rw [errorsAt_follow]
  split at hpoint
  next hretry =>
    rw [if_pos hretry, follow_of_ne_ended r fun outcome hended => by simp [hpoint] at hended]
    exact ⟨rfl, hpoint⟩
  next hretry =>
    rw [if_neg hretry]
    rw [follow_of_ended r hpoint] at hnext htoken hfunnel ⊢
    have houtcome : Run.outcome _ = .error fault :=
      outcome_of_ended htoken (hfunnel ▸ hentry) hpoint
    exact (hnext.endsBy (.inl rfl)).failed_iff_fault.mpr ⟨fault, houtcome⟩

/-- What a run records at nodes from one wait to the next: nothing, or one failure, at the node that
was tried last. -/
inductive Records (engine : Engine) (r next : Run) : Prop
  | nothing {added : List ErrorEntry}
      (herrors : next.execution.errors = r.execution.errors ++ added)
      (hnone : ∀ entry ∈ added, entry.node = none)
  | failure {n : Node} {fault : EngineFault} {recorded : ErrorEntry} {added : List ErrorEntry}
      (hfault : n.Fails engine (fun _ _ => True) fault)
      (herrors : next.execution.errors = r.execution.errors ++ recorded :: added)
      (hnone : ∀ entry ∈ added, entry.node = none) (hnode : recorded.node = some n.id)
      (hmessage : recorded.message = fault.message)
      (hretryable : recorded.isRetryable = fault.isRetryable)
      (hlast : next.tried.getLast? = some n) (hstands : next.StandsAfter engine n fault)

/-- A node that was at work when its run was resumed had been tried last. -/
theorem ComesFrom.getLast?_tried (h : r.ComesFrom engine moment call) (hphase : r.phase = .walking)
    (hstage : r.walk.point.stage.node? = some n) : r.tried.getLast? = some n := by
  refine h.isCounted.last n ?_
  rw [Run.standing, stage, hphase]
  exact hstage

theorem ComesFrom.records (h : r.ComesFrom engine moment call) (wake : Wake) (manager : Manager) :
    r.Records engine (r.resume engine wake manager).1 := by
  by_cases hunder : r.IsUnderWay
  case neg =>
    have hwalk := (isClosed_of_not_isUnderWay hunder).walk_resume engine wake manager
    have hsame : (r.resume engine wake manager).1.execution = r.execution :=
      congrArg Traversal.execution hwalk
    have herrors : (r.resume engine wake manager).1.execution.errors = r.execution.errors ++ [] := by
      rw [hsame, List.append_nil]
    exact .nothing herrors nofun
  rcases (h.belongsTo (WorksWith.trivial ..) rfl).steps hunder wake manager with
    ⟨-, hclose⟩ | ⟨hsome, walk, hfollow, hsteps, hgoes⟩
  · obtain ⟨added, herrors, hnone⟩ :=
      r.execution.errors_settle wake.moment (.error (.noEntry call.funnel.id))
    exact .nothing (hclose ▸ herrors) hnone
  obtain ⟨added, herrors, hnone⟩ := r.errors_follow wake.moment walk manager
  rw [← hfollow] at herrors
  have htried : (r.resume engine wake manager).1.tried = walk.tried := by
    rw [hfollow, tried_follow]
  -- Where the run sets out, it has just tried the node.
  have hrecorded : walk.execution.errors = r.execution.errors ∨ ∃ n,
      r.walk.Records engine (r.hears wake manager) walk n ∧ walk.tried.getLast? = some n := by
    by_cases hphase : r.phase = .opening
    · refine (hgoes hphase).records.imp_right fun ⟨n, hn, htried⟩ => ⟨n, hn, ?_⟩
      rw [htried, List.getLast?_concat]
    · refine hsteps.records.imp_right fun ⟨n, hn, htried⟩ => ⟨n, hn, ?_⟩
      rcases htried with htried | ⟨htried, hstage⟩
      · rw [htried, List.getLast?_concat]
      · rw [htried]
        exact h.getLast?_tried (hunder.resolve_left hphase) (hstage ▸ rfl)
  rcases hrecorded with hsame | ⟨n, hrecords, hlast⟩
  · exact .nothing (hsame ▸ herrors) hnone
  cases hrecords with
  | nothing hsame => exact .nothing (hsame ▸ herrors) hnone
  | @failure u fault hfault hfail hsame =>
    obtain ⟨recorded, hrecorded, hid, hmessage, hretryable⟩ :=
      u.errors_fail engine (r.hears wake manager) n fault
    refine .failure hfault ?_ hnone hid hmessage hretryable (htried ▸ hlast)
      (h.standsAfter hunder hsome (hfail ▸ hfollow))
    rw [herrors, hfail, hrecorded, hsame, List.append_assoc]
    rfl

/-! ## What follows a failure -/

section

variable (h : r.ComesFrom engine moment call) (hphase : r.phase = .walking)
  (hpoint : r.walk.point = .pausing n) {wake : Wake} {manager : Manager}

include h hphase hpoint

/-- A run that waits to try a node again is running. -/
theorem ComesFrom.isRunning_of_pausing : r.execution.isRunning = true := by
  have horder := h.isGrown.inOrder
  rw [Standing.IsInOrder, Run.standing, stage, hphase, hpoint] at horder
  exact horder.running

/-- It does so if the wait fits into its time and it is not cancelled. -/
theorem ComesFrom.tried_of_pausing (hfits : (r.walk.charge wake.spent).isSome = true)
    (hcalm : r.isCancelled manager = false) :
    (r.resume engine wake manager).1.tried = r.tried ++ [n] := by
  obtain ⟨budget, hbudget⟩ := Option.isSome_iff_exists.mp hfits
  have hbudget : r.walk.charge (r.hears wake manager).spent = some budget := hbudget
  have hbelongs := h.belongsTo (WorksWith.trivial engine call.funnel) rfl
  have hrun : r.walk.execution.isRunning = true := h.isRunning_of_pausing hphase hpoint
  have hcalm : (r.hears wake manager).cancelled = false := hcalm
  rw [hbelongs.resume_of_walking hphase, tried_follow,
    Traversal.resume_of_fits _ _ hpoint hbudget hrun hcalm, Traversal.tried_attempt]
  rfl

/-- It has ended, and tries nothing, if the wait does not fit or it is cancelled. -/
theorem ComesFrom.isTerminal_of_pausing
    (hover : ¬ ((r.walk.charge wake.spent).isSome = true ∧ r.isCancelled manager = false)) :
    (r.resume engine wake manager).1.execution.status.isTerminal = true ∧
      (r.resume engine wake manager).1.tried = r.tried := by
  have hbelongs := h.belongsTo (WorksWith.trivial engine call.funnel) rfl
  have hnext := h.resume wake manager
  cases hcharge : r.walk.charge (r.hears wake manager).spent with
  | none =>
    rw [hbelongs.resume_of_walking hphase, Traversal.resume_of_not_fits _ _ hpoint hcharge] at hnext ⊢
    rw [tried_follow]
    rw [follow_of_ended r rfl] at hnext ⊢
    exact ⟨(hnext.endsBy (.inl rfl)).terminal, rfl⟩
  | some budget =>
    have hcancelled : (r.hears wake manager).cancelled = true := by
      by_contra hcalm
      exact hover ⟨Option.isSome_of_eq_some hcharge, Bool.eq_false_of_not_eq_true hcalm⟩
    have hrun : r.walk.execution.isRunning = true := h.isRunning_of_pausing hphase hpoint
    have hwalk := hbelongs.resume_of_walking hphase wake manager
    obtain ⟨hstatus, hsaving, htried⟩ :=
      Traversal.resume_of_cancelled engine call.funnel hpoint hcharge hrun hcancelled
    rw [hwalk, tried_follow, htried,
      follow_of_ne_ended r fun outcome hended => by simp [hsaving] at hended]
    refine ⟨?_, rfl⟩
    rw [Run.execution, hstatus]
    rfl

end

variable {course : Course}

/-- What follows an error at a node that a run has just recorded. -/
structure Answers (engine : Engine) (course : Course) (r : Run) (n : Node) (entry : ErrorEntry) :
    Prop where
  /-- The node is the one that was tried last. -/
  last : r.tried.getLast? = some n
  /-- Only what an executor reports counts as a failure that may be different next time. -/
  fault : ∃ fault, n.Fails engine (fun _ _ => True) fault ∧ entry.message = fault.message ∧
    entry.isRetryable = fault.isRetryable
  /-- The node is tried again exactly if there are not too many errors against it yet, the pause fits
  into the time of the run, and no cancellation is seen after it. -/
  again : (r.after engine course 1).tried = r.tried ++ [n] ↔
    (entry.isRetryable = true ∧ r.execution.errorsAt n.id ≤ engine.limits.retries) ∧
      (r.walk.charge (course 0).1.spent).isSome = true ∧ r.isCancelled (course 0).2 = false
  /-- If it is not, then nothing is. -/
  quiet : (r.after engine course 1).tried ≠ r.tried ++ [n] →
    ∀ more, (r.after engine course more).tried = r.tried
  /-- Too many errors against a node, and errors of another kind, end the run. -/
  failed : ¬ (entry.isRetryable = true ∧ r.execution.errorsAt n.id ≤ engine.limits.retries) →
    r.execution.status = .failed

/-- A run that tries nothing more follows the rule, if nothing is to be tried. -/
theorem Answers.of_still {entry : ErrorEntry} (hlast : r.tried.getLast? = some n)
    (hfault : ∃ fault, n.Fails engine (fun _ _ => True) fault ∧ entry.message = fault.message ∧
      entry.isRetryable = fault.isRetryable)
    (hstill : ∀ more, (r.after engine course more).tried = r.tried)
    (hnot : ¬ ((entry.isRetryable = true ∧ r.execution.errorsAt n.id ≤ engine.limits.retries) ∧
      (r.walk.charge (course 0).1.spent).isSome = true ∧ r.isCancelled (course 0).2 = false))
    (hfailed : ¬ (entry.isRetryable = true ∧
      r.execution.errorsAt n.id ≤ engine.limits.retries) → r.execution.status = .failed) :
    r.Answers engine course n entry := by
  have hagain : (r.after engine course 1).tried ≠ r.tried ++ [n] := by
    rw [hstill 1]
    simp
  exact ⟨hlast, hfault, iff_of_false hagain hnot, fun _ => hstill, hfailed⟩

/-- A run follows the rule, wherever it stands after the error. -/
theorem StandsAfter.answers {fault : EngineFault} (hstands : r.StandsAfter engine n fault)
    (hr : r.ComesFrom engine moment call) (hlast : r.tried.getLast? = some n)
    (hfails : n.Fails engine (fun _ _ => True) fault) {entry : ErrorEntry}
    (hmessage : entry.message = fault.message)
    (hretryable : entry.isRetryable = fault.isRetryable) : r.Answers engine course n entry := by
  have hfault : ∃ fault, n.Fails engine (fun _ _ => True) fault ∧ entry.message = fault.message ∧
    entry.isRetryable = fault.isRetryable := ⟨fault, hfails, hmessage, hretryable⟩
  have hrule : engine.limits.allowsRetry fault (r.execution.errorsAt n.id) = true ↔
      entry.isRetryable = true ∧ r.execution.errorsAt n.id ≤ engine.limits.retries := by
    rw [Limits.allowsRetry, ← hretryable, Bool.and_eq_true, decide_eq_true_iff]
  rw [StandsAfter] at hstands
  split at hstands
  next hallows =>
    have hallowed := hrule.mp hallows
    obtain ⟨hphase, hpoint⟩ := hstands
    by_cases hgoes : (r.walk.charge (course 0).1.spent).isSome = true ∧
        r.isCancelled (course 0).2 = false
    · have hagain : (r.after engine course 1).tried = r.tried ++ [n] :=
        hr.tried_of_pausing hphase hpoint hgoes.1 hgoes.2
      exact ⟨hlast, hfault, iff_of_true hagain ⟨hallowed, hgoes⟩,
        fun hnot => absurd hagain hnot, fun hnot => absurd hallowed hnot⟩
    · obtain ⟨hterminal, hsame⟩ : (r.after engine course 1).execution.status.isTerminal = true ∧
          (r.after engine course 1).tried = r.tried := hr.isTerminal_of_pausing hphase hpoint hgoes
      have hstill (more : Nat) : (r.after engine course more).tried = r.tried := by
        cases more with
        | zero => rfl
        | succ more =>
          rw [after_succ_eq_resume, ← hsame]
          exact (hr.resume _ _).tried_after_of_isTerminal hterminal _ more
      exact .of_still hlast hfault hstill (fun hall => hgoes hall.2) fun hnot => absurd hallowed hnot
  next hrefuses =>
    have hterminal : r.execution.status.isTerminal = true := by rw [hstands]; rfl
    exact .of_still hlast hfault (hr.tried_after_of_isTerminal hterminal course)
      (fun hall => hrefuses (hrule.mpr hall.1)) fun _ => hstands

/-- **Every error at a node is answered by the rule.** -/
theorem ComesFrom.answers (hr : r.ComesFrom engine moment call) (wake : Wake) (manager : Manager)
    (course : Course) {entry : ErrorEntry} {id : String}
    (hentry : entry ∈ (r.resume engine wake manager).1.execution.errors.drop r.execution.errors.length)
    (hid : entry.node = some id) : ∃ n ∈ call.funnel.nodes, n.id = id ∧
      (r.resume engine wake manager).1.Answers engine course n entry := by
  have hnext := hr.resume wake manager
  cases hr.records wake manager with
  | nothing herrors hnone =>
    rw [herrors, List.drop_left] at hentry
    simp [hnone entry hentry] at hid
  | @failure n fault recorded added hfault herrors hnone hnode hmessage hretryable hlast hstands =>
    rw [herrors, List.drop_left] at hentry
    rcases List.mem_cons.mp hentry with rfl | hadded
    · have hn : n ∈ call.funnel.nodes :=
        hnext.isCounted.nodes (List.mem_of_getLast? hlast)
      refine ⟨n, hn, Option.some.inj (hnode.symm.trans hid), ?_⟩
      exact hstands.answers hnext hlast hfault hmessage hretryable
    · simp [hnone entry hadded] at hid

end Run

end Outreach
