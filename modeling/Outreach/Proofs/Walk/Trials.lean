import Mathlib.Data.List.ModifyLast
import Outreach.Proofs.Execution.Replay
import Outreach.Proofs.Run.Ending

/-!
# Attempts, and what an execution tells of them

An attempt at a node comes to a result, or it is ended before by a fault of the engine (`Trial`).
What an execution tells is determined by the attempts (`Execution.Recounts`): the log says of each
that it began, which result it came to and what was done about its failure, every failure is
recorded once, and the current node is the one that was tried last. A walk keeps this up from one
wait to the next (`Traversal.Recounts.resume`).
-/

namespace Outreach

/-- The result of work that is done. -/
def Task.result? : Task → Option ActionResult
  | .done result => some result
  | .sleep _ _ | .ask _ _ => none

/-- An attempt at a node, with the result that it came to or the fault that ended it before. There
is neither as long as the node is at work. -/
structure Trial where
  node : Node
  upshot : Option (Except EngineFault ActionResult)

namespace Trial

/-- An attempt that came to a result. -/
def IsFinished (t : Trial) : Prop :=
  ∃ result, t.upshot = some (.ok result)

/-- Why an attempt failed. -/
def fault? (t : Trial) : Option EngineFault :=
  match t.upshot with
  | none => none
  | some (.error fault) => some fault
  | some (.ok result) => if result.success then none else some (result.fault t.node)

/-- The failures of attempts: where, and with which text. -/
def failures (trials : List Trial) : List (Option String × String) :=
  trials.filterMap fun t => t.fault?.map fun fault => (some t.node.id, fault.message)

/-- The failures at nodes with an identifier. -/
def failuresAt (trials : List Trial) (id : String) : Nat :=
  (failures trials).countP fun failure => failure.1 == some id

/-! ## What a log is to say -/

/-- What is said of an attempt as such. -/
def report (t : Trial) : List Note :=
  match t.upshot with
  | some (.ok result) => [⟨.entered, some t.node.id⟩,
      ⟨.finished (some result.success) (some result.shouldContinue), some t.node.id⟩]
  | some (.error _) | none => [⟨.entered, some t.node.id⟩]

/-- What is said about the failure of an attempt that came after others. -/
def answer (limits : Limits) (earlier : List Trial) (t : Trial) : List Note :=
  match t.fault? with
  | none => []
  | some fault =>
    if limits.allowsRetry fault (failuresAt (earlier ++ [t]) t.node.id) then
      [⟨.retrying, some t.node.id⟩]
    else [⟨.gaveUp, some t.node.id⟩]

/-- What is said of attempts that came after others. -/
def replay (limits : Limits) (earlier : List Trial) : List Trial → List Note
  | [] => []
  | t :: later => t.report ++ t.answer limits earlier ++ replay limits (earlier ++ [t]) later

theorem failures_concat (trials : List Trial) (t : Trial) :
    failures (trials ++ [t]) = failures trials ++
      (t.fault?.map fun fault => (some t.node.id, fault.message)).toList := by
  rw [failures, List.filterMap_append]
  cases hfault : t.fault? <;> simp [failures, hfault]

theorem replay_concat (limits : Limits) (earlier trials : List Trial) (t : Trial) :
    replay limits earlier (trials ++ [t]) =
      replay limits earlier trials ++ (t.report ++ t.answer limits (earlier ++ trials)) := by
  induction trials generalizing earlier with
  | nil => simp [replay]
  | cons first trials ih => simp [replay, ih]

/-- What is said about beginnings names the attempts. -/
theorem filter_entered_replay (limits : Limits) (earlier trials : List Trial) :
    (replay limits earlier trials).filter (fun note => note.kind = .entered) =
      trials.map fun t => ⟨.entered, some t.node.id⟩ := by
  induction trials generalizing earlier with
  | nil => rfl
  | cons t later ih =>
    have hreport : t.report.filter (fun note => note.kind = .entered) =
        [⟨.entered, some t.node.id⟩] := by
      unfold report
      split <;> simp
    have hanswer : (t.answer limits earlier).filter (fun note => note.kind = .entered) = [] := by
      unfold answer
      split
      next => rfl
      next => split <;> simp
    rw [replay, List.filter_append, List.filter_append, hreport, hanswer, ih]
    rfl

/-! ## How attempts come out -/

/-- An attempt as it begins: it has come to its end already if the type of the node has no executor
or the executor does not have to wait. -/
def begin (engine : Engine) (now : Instant) (n : Node) (seen : Execution) : Trial where
  node := n
  upshot :=
    match engine.registry.executor? n.type with
    | none => some (.error (.noExecutor n.id n.type))
    | some x => (x.perform now n seen).result?.map .ok

/-- The last attempt comes out. -/
def conclude (upshot : Option (Except EngineFault ActionResult)) (trials : List Trial) :
    List Trial :=
  match upshot with
  | none => trials
  | some _ => trials.modifyLast fun t => { t with upshot }

theorem conclude_open (upshot : Option (Except EngineFault ActionResult)) (trials : List Trial)
    (n : Node) : conclude upshot (trials ++ [⟨n, none⟩]) = trials ++ [⟨n, upshot⟩] := by
  cases upshot with
  | none => rfl
  | some => exact List.modifyLast_concat ..

theorem map_node_conclude (upshot : Option (Except EngineFault ActionResult))
    (trials : List Trial) : (conclude upshot trials).map node = trials.map node := by
  cases upshot with
  | none => rfl
  | some upshot =>
    rcases trials.eq_nil_or_concat with rfl | ⟨earlier, t, rfl⟩
    · rfl
    · rw [conclude, List.concat_eq_append, List.modifyLast_concat]
      simp

end Trial

/-- A fault of the engine that ends an attempt before there is a result. -/
inductive EngineFault.Interrupts (engine : Engine) (n : Node) : EngineFault → Prop
  /-- The type of the node has no executor. -/
  | noExecutor (h : engine.registry.executor? n.type = none) :
    Interrupts engine n (.noExecutor n.id n.type)
  /-- The time was over while the node was at work. -/
  | timeout (limit : Nat) : Interrupts engine n (.timeout limit)

theorem EngineFault.Interrupts.isRetryable_eq_false {engine : Engine} {n : Node}
    {fault : EngineFault} (h : fault.Interrupts engine n) : fault.isRetryable = false := by
  cases h <;> rfl

/-! ## What an execution tells -/

/-- A log entry that says what is done about an error: it is at the same node, ends with the text of
the error, and is the very next thing that is written down, at one of some moments. -/
structure ErrorEntry.IsAnsweredBy (moments : Moment → Prop) (error : ErrorEntry)
    (answer : LogEntry) : Prop where
  node : answer.node = error.node
  text : ∃ start, answer.message = start ++ error.message
  next : ∃ moment, moments moment ∧ error.timestamp = moment.now ∧ answer.timestamp = moment.now ∧
    ∃ number, error.id = moment.fresh number ∧ answer.id = moment.fresh (number + 1)

namespace Execution

variable (limits : Limits) (moments : Moment → Prop)

/-- What an execution tells after some attempts. -/
structure Recounts (trials : List Trial) (e : Execution) : Prop where
  replay : e.replay = Trial.replay limits [] trials
  errors : e.nodeErrors.map (fun error => (error.node, error.message)) = Trial.failures trials
  answers : List.Forall₂ (ErrorEntry.IsAnsweredBy moments) e.nodeErrors e.answers
  currentNode : e.currentNode = trials.getLast?.map fun t => t.node.id

/-- What an execution tells when nothing has been done yet about the failure of the last attempt. -/
structure OwesAnswer (earlier : List Trial) (t : Trial) (e : Execution) : Prop where
  replay : e.replay = Trial.replay limits [] earlier ++ t.report
  errors : e.nodeErrors.map (fun error => (error.node, error.message)) = Trial.failures earlier
  answers : List.Forall₂ (ErrorEntry.IsAnsweredBy moments) e.nodeErrors e.answers
  currentNode : e.currentNode = some t.node.id

variable {limits moments} {e e' : Execution} {trials : List Trial} {t : Trial} {moment : Moment}
  {n : Node} {fault : EngineFault}

theorem Recounts.of_unnoted (h : e.Recounts limits moments trials) (he : e.Unnoted e') :
    e'.Recounts limits moments trials where
  replay := he.replay.trans h.replay
  errors := he.nodeErrors ▸ h.errors
  answers := he.nodeErrors ▸ he.answers ▸ h.answers
  currentNode := he.currentNode.trans h.currentNode

theorem Recounts.enter (h : e.Recounts limits moments trials) :
    (e.enter moment n).OwesAnswer limits moments trials ⟨n, none⟩ where
  replay := by rw [replay_enter, h.replay]; rfl
  errors := h.errors
  answers := by rw [answers_enter]; exact h.answers
  currentNode := rfl

namespace OwesAnswer

theorem take (h : e.OwesAnswer limits moments trials ⟨n, none⟩) (result : ActionResult) :
    (e.take moment n result).OwesAnswer limits moments trials ⟨n, some (.ok result)⟩ where
  replay := by rw [replay_take, h.replay, List.append_assoc]; rfl
  errors := h.errors
  answers := by rw [answers_take]; exact h.answers
  currentNode := h.currentNode

/-- An attempt that is ended before there is a result. -/
theorem interrupt (h : e.OwesAnswer limits moments trials ⟨n, none⟩) (fault : EngineFault) :
    e.OwesAnswer limits moments trials ⟨n, some (.error fault)⟩ :=
  ⟨h.replay, h.errors, h.answers, h.currentNode⟩

/-- Nothing is owed for an attempt that did not fail. -/
theorem recounts (h : e.OwesAnswer limits moments trials t) (hfault : t.fault? = none) :
    e.Recounts limits moments (trials ++ [t]) where
  replay := by
    rw [h.replay, Trial.replay_concat, Trial.answer, hfault]
    simp
  errors := by
    rw [h.errors, Trial.failures_concat, hfault]
    simp
  answers := h.answers
  currentNode := by rw [h.currentNode, List.getLast?_concat]; rfl

/-- The errors that are counted against a node are the failures there. -/
theorem errorsAt_eq (h : e.nodeErrors.map (fun error => (error.node, error.message)) =
    Trial.failures trials) (id : String) : e.errorsAt id = Trial.failuresAt trials id := by
  rw [Trial.failuresAt, ← h, List.countP_map, nodeErrors, List.countP_filter, errorsAt]
  refine List.countP_congr fun error _ => ?_
  cases hnode : error.node <;> simp [hnode]

theorem answer_eq (h : e.OwesAnswer limits moments trials t) (hfault : t.fault? = some fault) :
    Trial.answer limits trials t =
      if limits.allowsRetry fault ((e.recordFault moment t.node fault).errorsAt t.node.id) then
        [⟨.retrying, some t.node.id⟩]
      else [⟨.gaveUp, some t.node.id⟩] := by
  have herrors : (e.recordFault moment t.node fault).nodeErrors.map
      (fun error => (error.node, error.message)) = Trial.failures (trials ++ [t]) := by
    have hrecorded := (e.recordsAnswer_giveUp moment t.node fault).nodeErrors
    rw [Trial.failures_concat, hfault, ← h.errors]
    exact (congrArg (List.map _) hrecorded).trans (List.map_append ..)
  rw [Trial.answer, hfault, errorsAt_eq herrors]

/-- A failure is recorded and answered at once. -/
theorem answered (h : e.OwesAnswer limits moments trials t) (hfault : t.fault? = some fault)
    (hmoment : moments moment) {kind : Note.Kind}
    (hanswer : Trial.answer limits trials t = [⟨kind, some t.node.id⟩])
    (he : e.RecordsAnswer moment t.node fault kind e') :
    e'.Recounts limits moments (trials ++ [t]) := by
  constructor
  case replay =>
    rw [he.replay, h.replay, Trial.replay_concat, List.nil_append, hanswer, List.append_assoc]
  case errors =>
    rw [he.nodeErrors, List.map_append, h.errors, Trial.failures_concat, hfault]
    rfl
  case answers =>
    obtain ⟨level, start, data, hanswers⟩ := he.answers
    rw [he.nodeErrors, hanswers]
    refine List.rel_append h.answers (.cons ⟨rfl, ⟨start, rfl⟩, ?_⟩ .nil)
    exact ⟨moment, hmoment, rfl, rfl, _, rfl, rfl⟩
  case currentNode =>
    rw [he.currentNode, h.currentNode, List.getLast?_concat]
    rfl

theorem noteRetry (h : e.OwesAnswer limits moments trials t) (hfault : t.fault? = some fault)
    (hmoment : moments moment) (hretry : limits.allowsRetry fault
      ((e.recordFault moment t.node fault).errorsAt t.node.id) = true) :
    ((e.recordFault moment t.node fault).noteRetry moment limits t.node fault).Recounts limits
      moments (trials ++ [t]) := by
  refine h.answered hfault hmoment ?_ (e.recordsAnswer_noteRetry moment t.node fault limits)
  rw [h.answer_eq hfault, if_pos hretry]

theorem giveUp (h : e.OwesAnswer limits moments trials t) (hfault : t.fault? = some fault)
    (hmoment : moments moment) (hretry : limits.allowsRetry fault
      ((e.recordFault moment t.node fault).errorsAt t.node.id) = false) :
    ((e.recordFault moment t.node fault).giveUp moment t.node fault).Recounts limits moments
      (trials ++ [t]) := by
  refine h.answered hfault hmoment ?_ (e.recordsAnswer_giveUp moment t.node fault)
  rw [h.answer_eq hfault, if_neg (by rw [hretry]; exact Bool.false_ne_true)]

end OwesAnswer

/-! ### Between attempts and during one -/

variable (limits moments)

/-- An execution between two attempts: all of them came to a result, and no node was given up. -/
structure IsTold (trials : List Trial) (e : Execution) : Prop
    extends Recounts limits moments trials e where
  finished : ∀ t ∈ trials, t.IsFinished
  standing : ∀ note ∈ e.replay, note.kind ≠ .gaveUp

/-- An execution while a node is tried: the attempts before came to a result, and no node was given
up. -/
structure IsAt (earlier : List Trial) (n : Node) (e : Execution) : Prop
    extends OwesAnswer limits moments earlier ⟨n, none⟩ e where
  finished : ∀ t ∈ earlier, t.IsFinished
  standing : ∀ note ∈ e.replay, note.kind ≠ .gaveUp

variable {limits moments}

theorem countP_gaveUp_eq_zero (h : ∀ note ∈ e.replay, note.kind ≠ .gaveUp) :
    e.replay.countP (fun note => note.kind = .gaveUp) = 0 :=
  List.countP_eq_zero.mpr fun note hnote => by simpa using h note hnote

theorem IsTold.of_unnoted (h : e.IsTold limits moments trials) (he : e.Unnoted e') :
    e'.IsTold limits moments trials :=
  ⟨h.toRecounts.of_unnoted he, h.finished, he.replay ▸ h.standing⟩

theorem IsTold.enter (h : e.IsTold limits moments trials) (moment : Moment) (n : Node) :
    (e.enter moment n).IsAt limits moments trials n := by
  refine ⟨h.toRecounts.enter, h.finished, ?_⟩
  rw [replay_enter, List.forall_mem_append]
  exact ⟨h.standing, by simp⟩

/-- After the result of an attempt no node is given up yet. -/
theorem IsAt.standing_take (h : e.IsAt limits moments trials n) (moment : Moment)
    (result : ActionResult) :
    ∀ note ∈ (e.take moment n result).replay, note.kind ≠ .gaveUp := by
  rw [replay_take, List.forall_mem_append]
  exact ⟨h.standing, by simp⟩

/-- An attempt that went well. -/
theorem IsAt.isTold_take (h : e.IsAt limits moments trials n) (moment : Moment)
    {result : ActionResult} (hsuccess : result.success = true) :
    (e.take moment n result).IsTold limits moments (trials ++ [⟨n, some (.ok result)⟩]) := by
  have hfault : Trial.fault? ⟨n, some (.ok result)⟩ = none := if_pos hsuccess
  refine ⟨(h.toOwesAnswer.take result).recounts hfault, ?_, h.standing_take moment result⟩
  rw [List.forall_mem_append]
  exact ⟨h.finished, by simp [Trial.IsFinished]⟩

/-- Nothing has been tried when a run begins. -/
theorem isTold_ofCall (moment : Moment) (call : Call) :
    (ofCall moment call).IsTold limits moments [] := by
  rw [ofCall, String.append_assoc]
  refine IsTold.of_unnoted ?_ ((unnoted_move _ moment .running).trans
    (unnoted_log_append _ _ _ _ _ (by decide) _))
  exact ⟨⟨rfl, rfl, .nil, rfl⟩, List.forall_mem_nil _, List.forall_mem_nil _⟩

end Execution

/-! ## Walks -/

namespace Traversal

variable (engine : Engine) (moments : Moment → Prop)

/-- A walk whose execution tells of some attempts, which are those that the walk has made. -/
inductive Recounts (trials : List Trial) (t : Traversal) : Prop
  /-- It is between two attempts, or over. -/
  | rests (hidle : t.point.IsIdle) (h : t.execution.IsTold engine.limits moments trials)
  /-- A node is at work. -/
  | works {earlier : List Trial} {n : Node} {isExempt : Bool} {task : Task}
      (hpoint : t.point = .working n isExempt task) (htrials : trials = earlier ++ [⟨n, none⟩])
      (h : t.execution.IsAt engine.limits moments earlier n)
  /-- The last attempt has ended it: its node was given up. -/
  | breaks {earlier : List Trial} {last : Trial} {fault : EngineFault}
      (hpoint : t.point = .ended (.error fault)) (htrials : trials = earlier ++ [last])
      (hfinished : ∀ t ∈ earlier, t.IsFinished)
      (hlast : last.IsFinished ∨
        last.upshot = some (.error fault) ∧ fault.Interrupts engine last.node)
      (h : t.execution.Recounts engine.limits moments trials)
      (honce : t.execution.replay.countP (fun note => note.kind = .gaveUp) = 1)

variable {engine moments} {f : Funnel} {t t' : Traversal} {wake : Wake} {n : Node}
  {trials earlier : List Trial} {fault : EngineFault}

theorem Recounts.of_unnoted (h : t.Recounts engine moments trials) (hpoint : t'.point = t.point)
    (he : t.execution.Unnoted t'.execution) : t'.Recounts engine moments trials := by
  cases h with
  | rests hidle h => exact .rests (hpoint ▸ hidle) (h.of_unnoted he)
  | works hworking htrials h =>
    refine .works (hpoint.trans hworking) htrials ⟨?_, h.finished, he.replay ▸ h.standing⟩
    exact ⟨he.replay.trans h.replay, he.nodeErrors ▸ h.errors,
      he.nodeErrors ▸ he.answers ▸ h.answers, he.currentNode.trans h.currentNode⟩
  | breaks hended htrials hfinished hlast h honce =>
    exact .breaks (hpoint.trans hended) htrials hfinished hlast (h.of_unnoted he)
      (he.replay ▸ honce)

/-! ### What follows at any time -/

/-- Nothing is owed for an attempt that goes on. -/
theorem Recounts.told (h : t.Recounts engine moments trials) :
    t.execution.Recounts engine.limits moments trials := by
  cases h with
  | rests _ h => exact h.toRecounts
  | works _ htrials h => exact htrials ▸ h.toOwesAnswer.recounts rfl
  | breaks _ _ _ _ h _ => exact h

/-- Every attempt but the last one came to a result. -/
theorem Recounts.finished (h : t.Recounts engine moments trials) :
    ∀ trial ∈ trials.dropLast, trial.IsFinished := by
  cases h with
  | rests _ h => exact fun trial htrial => h.finished trial (List.mem_of_mem_dropLast htrial)
  | works _ htrials h =>
    rw [htrials, List.dropLast_concat]
    exact h.finished
  | breaks _ htrials hfinished _ _ _ =>
    rw [htrials, List.dropLast_concat]
    exact hfinished

/-- Where a walk is over, its last attempt came to a result or was ended by the fault that ended the
walk. -/
theorem Recounts.last_of_ended (h : t.Recounts engine moments trials)
    {outcome : Except EngineFault Unit} (hended : t.point = .ended outcome) {last : Trial}
    (hlast : trials.getLast? = some last) :
    last.IsFinished ∨ ∃ fault, last.upshot = some (.error fault) ∧
      fault.Interrupts engine last.node ∧ outcome = .error fault := by
  cases h with
  | rests _ h => exact .inl (h.finished last (List.mem_of_getLast? hlast))
  | works hpoint _ _ => simp [hpoint] at hended
  | @breaks earlier last' fault hpoint htrials _ hbroken _ _ =>
    rw [htrials, List.getLast?_concat] at hlast
    obtain rfl := Option.some.inj hlast
    refine hbroken.imp_right fun hbroken => ⟨fault, hbroken.1, hbroken.2, ?_⟩
    exact Point.ended.inj (hended.symm.trans hpoint)

/-- No more than one node is given up. -/
theorem Recounts.gaveUps_le (h : t.Recounts engine moments trials) :
    t.execution.replay.countP (fun note => note.kind = .gaveUp) ≤ 1 := by
  cases h with
  | rests _ h => exact (Execution.countP_gaveUp_eq_zero h.standing).le.trans (Nat.zero_le 1)
  | works _ _ h => exact (Execution.countP_gaveUp_eq_zero h.standing).le.trans (Nat.zero_le 1)
  | breaks _ _ _ _ _ honce => exact honce.le

/-! ### What a walk does -/

theorem recounts_settle (h : t.execution.IsTold engine.limits moments trials) (step : Step) :
    (t.settle wake n step).Recounts engine moments trials :=
  .rests trivial (h.of_unnoted (t.execution.unnoted_observe wake.moment wake.cancelled))

section

variable (hmoment : moments wake.moment)

include hmoment

/-- A failure is answered, and ends the walk if the node is given up. -/
theorem recounts_fail {last : Trial}
    (h : t.execution.OwesAnswer engine.limits moments earlier last)
    (hfinished : ∀ t ∈ earlier, t.IsFinished)
    (hstanding : ∀ note ∈ t.execution.replay, note.kind ≠ .gaveUp)
    (hfault : last.fault? = some fault)
    (hlast : last.IsFinished ∨
      last.upshot = some (.error fault) ∧ fault.Interrupts engine last.node) :
    (t.fail engine wake last.node fault).Recounts engine moments (earlier ++ [last]) := by
  cases hretry : engine.limits.allowsRetry fault
      ((t.execution.recordFault wake.moment last.node fault).errorsAt last.node.id) with
  | true =>
    -- What interrupts an attempt is not mended by another one.
    have hresult : last.IsFinished := by
      refine hlast.resolve_right fun hinterrupted => ?_
      rw [allowsRetry_of_not_isRetryable hinterrupted.2.isRetryable_eq_false] at hretry
      cases hretry
    rw [fail_of_allowsRetry t hretry]
    refine .rests trivial ⟨h.noteRetry hfault hmoment hretry, ?_, ?_⟩
    · rw [List.forall_mem_append]
      exact ⟨hfinished, by simpa using hresult⟩
    · have hreplay :=
        (t.execution.recordsAnswer_noteRetry wake.moment last.node fault engine.limits).replay
      intro note hnote
      rcases List.mem_append.mp (hreplay ▸ hnote) with hnote | hnote
      · exact hstanding note hnote
      · simp [List.mem_singleton.mp hnote]
  | false =>
    rw [fail_of_not_allowsRetry t hretry]
    refine .breaks rfl rfl hfinished hlast (h.giveUp hfault hmoment hretry) ?_
    have hnone := Execution.countP_gaveUp_eq_zero hstanding
    have hreplay := (t.execution.recordsAnswer_giveUp wake.moment last.node fault).replay
    refine (congrArg (List.countP _) hreplay).trans ?_
    rw [List.countP_append, hnone]
    rfl

theorem recounts_conclude (h : t.execution.IsAt engine.limits moments earlier n)
    (result : ActionResult) : (t.conclude engine f wake n result).Recounts engine moments
      (earlier ++ [⟨n, some (.ok result)⟩]) := by
  unfold conclude
  dsimp only
  split
  next hfail =>
    have hfail : result.success = false := by simpa using hfail
    have hfault : Trial.fault? ⟨n, some (.ok result)⟩ = some (result.fault n) :=
      if_neg (by rw [hfail]; exact Bool.false_ne_true)
    exact recounts_fail hmoment (h.toOwesAnswer.take result) h.finished
      (h.standing_take wake.moment result) hfault (.inl ⟨result, rfl⟩)
  next hwork =>
    have hwork : result.success = true := by simpa using hwork
    have htold := h.isTold_take wake.moment hwork
    split
    next => exact recounts_settle htold _
    next => exact recounts_settle (htold.of_unnoted (Execution.unnoted_onward ..)) _

theorem recounts_work (h : t.execution.IsAt engine.limits moments earlier n) (isExempt : Bool)
    (task : Task) : (t.work engine f wake n isExempt task).Recounts engine moments
      (earlier ++ [⟨n, task.result?.map .ok⟩]) := by
  cases task with
  | done result => exact recounts_conclude hmoment h result
  | sleep => exact .works rfl rfl h
  | ask => exact .works rfl rfl h

/-- Nothing came of an attempt that is ended before there is a result. -/
theorem recounts_interrupt (h : t.execution.IsAt engine.limits moments earlier n)
    (hfault : fault.Interrupts engine n) : (t.fail engine wake n fault).Recounts engine moments
      (earlier ++ [⟨n, some (.error fault)⟩]) := by
  have howes := h.toOwesAnswer.interrupt fault
  exact recounts_fail hmoment howes h.finished h.standing rfl (.inr ⟨rfl, hfault⟩)

theorem recounts_attempt (h : t.execution.IsTold engine.limits moments trials) :
    (t.attempt engine f wake n).Recounts engine moments (trials ++
      [.begin engine wake.moment.now n (t.execution.enter wake.moment n)]) := by
  have hentered := h.enter wake.moment n
  unfold attempt Trial.begin
  dsimp only
  cases hx : engine.registry.executor? n.type with
  | none => exact recounts_interrupt hmoment hentered (.noExecutor hx)
  | some x => exact recounts_work hmoment hentered _ _

end

end Traversal

/-! ## From one wait to the next -/

/-- What can be seen of an attempt, as it begins. -/
def Sighting.trial? (engine : Engine) (now : Instant) : Sighting → Option Trial
  | .attempt n seen => some (.begin engine now n seen)
  | .snapshot _ => none

theorem Sighting.map_node_trials (engine : Engine) (now : Instant) (seen : List Sighting) :
    (seen.filterMap (trial? engine now)).map Trial.node = seen.filterMap tried? := by
  rw [List.map_filterMap]
  congr 1
  funext sighting
  cases sighting <;> rfl

namespace Traversal

/-- How the attempt comes out that a walk waits for, if it does when the wait is over. -/
def upshot? (wake : Wake) (t : Traversal) : Option (Except EngineFault ActionResult) :=
  match t.point with
  | .working _ _ task =>
    match t.charge wake.spent with
    | none => some (.error (.timeout t.budget.limit))
    | some _ => (continueTask task wake).result?.map .ok
  | .saving _ _ | .pausing _ | .ended _ => none

variable (engine : Engine) (moments : Moment → Prop) (wake : Wake)

/-- A walk that goes on after some attempts, and tells of these and of those that it makes. -/
def TellsOn (trials : List Trial) (t t' : Traversal) : Prop :=
  ∃ made, t'.trace.filterMap (Sighting.trial? engine wake.moment.now) =
      t.trace.filterMap (Sighting.trial? engine wake.moment.now) ++ made ∧
    t'.Recounts engine moments (trials ++ made)

variable {engine moments wake} {f : Funnel} {t t' : Traversal} {trials : List Trial}

/-- Nothing is tried. -/
theorem TellsOn.of_idle (h : t'.Recounts engine moments trials)
    (hidle : t'.trace.filterMap (Sighting.trial? engine wake.moment.now) =
      t.trace.filterMap (Sighting.trial? engine wake.moment.now)) :
    TellsOn engine moments wake trials t t' :=
  ⟨[], by rw [hidle, List.append_nil], by rw [List.append_nil]; exact h⟩

section

variable (hmoment : moments wake.moment)

include hmoment

theorem tellsOn_attempt (h : t.execution.IsTold engine.limits moments trials) (n : Node) :
    TellsOn engine moments wake trials t (t.attempt engine f wake n) :=
  ⟨_, filterMap_attempt fun _ => rfl, recounts_attempt hmoment h⟩

theorem tellsOn_advance (h : t.execution.IsTold engine.limits moments trials) :
    TellsOn engine moments wake trials t (t.advance engine f wake) := by
  have hobserved := h.of_unnoted (t.execution.unnoted_observe wake.moment wake.cancelled)
  unfold advance
  split
  next => exact .of_idle (.rests trivial h) rfl
  next n rest _ =>
    dsimp only
    split
    next => exact tellsOn_attempt hmoment hobserved n
    next => exact .of_idle (.rests trivial hobserved) rfl

theorem tellsOn_proceed (h : t.execution.IsTold engine.limits moments trials) (n : Node)
    (step : Step) : TellsOn engine moments wake trials t (t.proceed engine f wake n step) := by
  cases step with
  | proceed next => exact tellsOn_advance (t := { t with pending := next ++ t.pending }) hmoment h
  | finish => exact .of_idle (.rests trivial (h.of_unnoted (t.execution.unnoted_stop ..))) rfl
  | halt => exact .of_idle (.rests trivial h) rfl

/-- **A walk tells of every attempt**, from one wait to the next: of the one that it waited for as
that came out, and of the one that it makes then. -/
theorem Recounts.resume (h : t.Recounts engine moments trials) :
    TellsOn engine moments wake (Trial.conclude (t.upshot? wake) trials) t
      (t.resume engine f wake) := by
  cases h with
  | @works earlier n isExempt task hpoint htrials h =>
    -- The attempt under way comes out, unless its work goes on waiting.
    rw [htrials, Trial.conclude_open]
    unfold Traversal.resume upshot?
    rw [hpoint]
    cases hcharge : t.charge wake.spent with
    | none => exact .of_idle (recounts_interrupt hmoment h (.timeout _)) (by rw [trace_fail])
    | some budget =>
      have hcharged : Execution.IsAt engine.limits moments earlier n
          (execution { t with budget }) := h
      exact .of_idle (recounts_work hmoment hcharged _ _) (filterMap_work (fun _ => rfl) _ _)
  | breaks hpoint htrials hfinished hlast h honce =>
    have hover : t.resume engine f wake = t := by
      unfold Traversal.resume
      rw [hpoint]
    have hnone : t.upshot? wake = none := by rw [upshot?, hpoint]
    rw [hover, hnone]
    exact .of_idle (.breaks hpoint htrials hfinished hlast h honce) rfl
  | rests hidle h =>
    unfold Traversal.resume upshot?
    cases hpoint : t.point with
    | working n isExempt task => exact absurd hidle (by rw [hpoint]; exact id)
    | ended outcome => exact .of_idle (.rests hidle h) rfl
    | saving n step => exact tellsOn_proceed hmoment h n step
    | pausing n =>
      dsimp only
      split
      next => exact .of_idle (.rests trivial h) rfl
      next budget _ =>
        have hobserved := h.of_unnoted (t.execution.unnoted_observe wake.moment wake.cancelled)
        split
        next =>
          let observed : Traversal := { t with
            budget, execution := t.execution.observe wake.moment wake.cancelled }
          exact tellsOn_attempt (t := observed) hmoment hobserved n
        next =>
          exact .of_idle (recounts_settle hobserved _) (filterMap_settle (fun _ => rfl) _)

end

end Traversal

end Outreach
