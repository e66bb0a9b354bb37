import Outreach.Proofs.Execution.Frame
import Outreach.Proofs.Execution.Notes

/-!
# What a log tells of attempts

Four kinds of entries in a log tell of an attempt at a node: that it began, that it came to a
result, and, where it failed, that the node is tried again or given up. They are told apart by how
their texts begin (`LogEntry.note?`). What else happens to an execution leaves them alone, and with
them the errors at nodes and the current node (`Execution.Unnoted`).
-/

namespace Outreach

/-- What an entry of a log says about an attempt. -/
inductive Note.Kind where
  /-- The attempt began. -/
  | entered
  /-- It came to a result, with these flags as far as the entry has them. -/
  | finished (success shouldContinue : Option Bool)
  /-- It failed, and the node is tried again. -/
  | retrying
  /-- It failed, and the node is given up. -/
  | gaveUp
  deriving DecidableEq

/-- What an entry of a log says about an attempt, and at which node. -/
structure Note where
  kind : Note.Kind
  node : Option String
  deriving DecidableEq

namespace Note

/-- Whether something is said about a failure. -/
def Kind.isAnswer : Kind → Bool
  | entered | finished _ _ => false
  | retrying | gaveUp => true

/-- How the texts begin that say something about attempts. -/
def starts : List String :=
  ["executing node '", "node '", "retrying node (retry ", "node failed: "]

/-- A flag among the data of an entry. -/
def flag? (name : String) (data : Option Json) : Option Bool :=
  match data.bind (Json.member? name) with
  | some (.bool value) => some value
  | _ => none

/-- What a text with its data says. -/
def kind? (message : String) (data : Option Json) : Option Kind :=
  let begins (start : String) : Bool := start.toList.isPrefixOf message.toList
  if begins "executing node '" then some .entered
  else if begins "node '" then some (.finished (flag? "success" data) (flag? "shouldContinue" data))
  else if begins "retrying node (retry " then some .retrying
  else if begins "node failed: " then some .gaveUp
  else none

section

variable {message : String} (data : Option Json)

theorem isPrefixOf_append (start rest : String) :
    start.toList.isPrefixOf (start ++ rest).toList = true := by
  rw [String.toList_append, List.isPrefixOf_iff_prefix]
  exact List.prefix_append _ _

theorem isPrefixOf_of_apart {start : String} (h : Text.Apart start message) :
    start.toList.isPrefixOf message.toList = false :=
  Bool.eq_false_iff.mpr fun hprefix => h.1 (List.isPrefixOf_iff_prefix.mp hprefix)

/-- A text that begins in another way says nothing about attempts. -/
theorem kind?_of_apart (h : ∀ start ∈ starts, Text.Apart start message) :
    kind? message data = none := by
  have hother (start : String) (hstart : start ∈ starts) :
      start.toList.isPrefixOf message.toList = false := isPrefixOf_of_apart (h start hstart)
  simp only [starts, List.mem_cons, forall_eq_or_imp] at hother
  obtain ⟨hentered, hfinished, hretrying, hgaveUp, -⟩ := hother
  simp only [kind?, hentered, hfinished, hretrying, hgaveUp, Bool.false_eq_true, if_false]

theorem kind?_entered (rest : String) :
    kind? ("executing node '" ++ rest) data = some .entered := by
  simp only [kind?, isPrefixOf_append, if_true]

theorem kind?_finished (rest : String) : kind? ("node '" ++ rest) data =
    some (.finished (flag? "success" data) (flag? "shouldContinue" data)) := by
  have hentered := isPrefixOf_of_apart
    ((by decide : Text.Apart "executing node '" "node '").append rest)
  simp only [kind?, hentered, isPrefixOf_append, Bool.false_eq_true, if_false, if_true]

theorem kind?_retrying (rest : String) :
    kind? ("retrying node (retry " ++ rest) data = some .retrying := by
  have hentered := isPrefixOf_of_apart
    ((by decide : Text.Apart "executing node '" "retrying node (retry ").append rest)
  have hfinished := isPrefixOf_of_apart
    ((by decide : Text.Apart "node '" "retrying node (retry ").append rest)
  simp only [kind?, hentered, hfinished, isPrefixOf_append, Bool.false_eq_true, if_false, if_true]

theorem kind?_gaveUp (rest : String) : kind? ("node failed: " ++ rest) data = some .gaveUp := by
  have hentered := isPrefixOf_of_apart
    ((by decide : Text.Apart "executing node '" "node failed: ").append rest)
  have hfinished := isPrefixOf_of_apart
    ((by decide : Text.Apart "node '" "node failed: ").append rest)
  have hretrying := isPrefixOf_of_apart
    ((by decide : Text.Apart "retrying node (retry " "node failed: ").append rest)
  simp only [kind?, hentered, hfinished, hretrying, isPrefixOf_append, Bool.false_eq_true,
    if_false, if_true]

end

end Note

namespace LogEntry

/-- What an entry says about attempts, if anything. -/
def note? (entry : LogEntry) : Option Note :=
  (Note.kind? entry.message entry.data).map (⟨·, entry.node⟩)

/-- Whether an entry says what is done about a failure. -/
def isAnswer (entry : LogEntry) : Bool :=
  entry.note?.any fun note => note.kind.isAnswer

end LogEntry

/-! ## An execution and what it tells -/

namespace Execution

/-- What a log says about attempts, in order. -/
def replay (e : Execution) : List Note :=
  e.logs.filterMap LogEntry.note?

/-- The entries of a log that say what is done about failures, in order. -/
def answers (e : Execution) : List LogEntry :=
  e.logs.filter LogEntry.isAnswer

/-- The errors that are recorded against nodes, in order. -/
def nodeErrors (e : Execution) : List ErrorEntry :=
  e.errors.filter fun entry => entry.node.isSome

/-- A change of which nothing can be seen that concerns attempts. -/
structure Unnoted (e e' : Execution) : Prop where
  replay : e'.replay = e.replay
  answers : e'.answers = e.answers
  nodeErrors : e'.nodeErrors = e.nodeErrors
  currentNode : e'.currentNode = e.currentNode

namespace Unnoted

variable {e e' e'' : Execution}

theorem refl (e : Execution) : e.Unnoted e :=
  ⟨rfl, rfl, rfl, rfl⟩

theorem trans (h : e.Unnoted e') (h' : e'.Unnoted e'') : e.Unnoted e'' where
  replay := h'.replay.trans h.replay
  answers := h'.answers.trans h.answers
  nodeErrors := h'.nodeErrors.trans h.nodeErrors
  currentNode := h'.currentNode.trans h.currentNode

end Unnoted

variable (e : Execution) (moment : Moment) (n : Node) (fault : EngineFault)

section

variable (level : Level) (node : Option String) (message : String) (data : Option Json)

/-- What an entry says is told last. -/
theorem replay_log : (e.log moment level node message data).replay =
    e.replay ++ ((Note.kind? message data).map (⟨·, node⟩)).toList := by
  rw [replay, log, List.filterMap_append]
  cases hkind : Note.kind? message data <;> simp [replay, LogEntry.note?, hkind]

theorem answers_log : (e.log moment level node message data).answers = e.answers ++
    if (Note.kind? message data).any Note.Kind.isAnswer then
      [⟨moment.fresh (e.entryCount + 1), moment.now, level, node, message, data⟩]
    else [] := by
  rw [answers, log, List.filter_append]
  cases hkind : Note.kind? message data <;>
    simp [answers, List.filter_cons, LogEntry.isAnswer, LogEntry.note?, hkind]

end

/-! ## What is told of attempts -/

theorem replay_enter : (e.enter moment n).replay = e.replay ++ [⟨.entered, some n.id⟩] := by
  rw [enter, replay_log, String.append_assoc, Note.kind?_entered]
  rfl

theorem answers_enter : (e.enter moment n).answers = e.answers := by
  rw [enter, answers_log, String.append_assoc, Note.kind?_entered]
  exact List.append_nil _

/-- The flags of a result can be read off its entry. -/
theorem flag?_result (success shouldContinue : Bool) (data : Json) :
    let entries := [("success", .bool success), ("shouldContinue", .bool shouldContinue),
      ("data", data)]
    Note.flag? "success" (some (.record entries)) = some success ∧
      Note.flag? "shouldContinue" (some (.record entries)) = some shouldContinue := by
  intro entries
  have hrecord : Json.record entries = .object [("data", data),
      ("shouldContinue", .bool shouldContinue), ("success", .bool success)] := by
    simp only [entries, Json.record, Members.ofEntries, Members.merge, Members.insert,
      List.foldl_cons, List.foldl_nil, String.reduceLT, String.reduceEq, if_true, if_false]
  rw [hrecord]
  exact ⟨rfl, rfl⟩

theorem replay_take (result : ActionResult) : (e.take moment n result).replay = e.replay ++
    [⟨.finished (some result.success) (some result.shouldContinue), some n.id⟩] := by
  obtain ⟨hsuccess, hcontinue⟩ :=
    flag?_result result.success result.shouldContinue (.orNull result.data)
  rw [take, replay_log, String.append_assoc, Note.kind?_finished, hsuccess, hcontinue]
  rfl

theorem answers_take (result : ActionResult) :
    (e.take moment n result).answers = e.answers := by
  rw [take, answers_log, String.append_assoc, Note.kind?_finished]
  exact List.append_nil _

/-- A failure of a node is recorded, and the next entry says what is done about it. -/
structure RecordsAnswer (kind : Note.Kind) (e' : Execution) : Prop where
  replay : e'.replay = e.replay ++ [⟨kind, some n.id⟩]
  nodeErrors : e'.nodeErrors = e.nodeErrors ++ [⟨moment.fresh (e.entryCount + 1), moment.now,
    some n.id, fault.message, none, fault.isRetryable⟩]
  answers : ∃ level start data, e'.answers = e.answers ++ [⟨moment.fresh (e.entryCount + 2),
    moment.now, level, some n.id, start ++ fault.message, data⟩]
  currentNode : e'.currentNode = e.currentNode

section

variable {kind : Note.Kind} (hkind : kind.isAnswer = true) (level : Level) (start : String)
  (data : Option Json)

include hkind

theorem recordsAnswer_log (h : Note.kind? (start ++ fault.message) data = some kind) :
    e.RecordsAnswer moment n fault kind
      ((e.recordError moment (some n.id) fault.message none fault.isRetryable).log moment level
        (some n.id) (start ++ fault.message) data) where
  replay := by
    rw [replay_log, h]
    rfl
  nodeErrors := by
    rw [nodeErrors, log, recordError, List.filter_append]
    rfl
  answers := by
    refine ⟨level, start, data, ?_⟩
    have hcount : (e.recordError moment (some n.id) fault.message none
        fault.isRetryable).entryCount = e.entryCount + 1 := by
      simp [recordError, entryCount, Nat.add_assoc]
    rw [answers_log, h, Option.any_some, if_pos hkind, hcount]
    rfl
  currentNode := rfl

end

theorem recordsAnswer_noteRetry (limits : Limits) : e.RecordsAnswer moment n fault .retrying
    ((e.recordError moment (some n.id) fault.message none fault.isRetryable).noteRetry moment limits
      n fault) := by
  apply recordsAnswer_log
  · rfl
  · simp only [String.append_assoc, Note.kind?_retrying]

theorem recordsAnswer_giveUp : e.RecordsAnswer moment n fault .gaveUp
    ((e.recordError moment (some n.id) fault.message none fault.isRetryable).giveUp moment n
      fault) := by
  apply recordsAnswer_log
  · rfl
  · exact Note.kind?_gaveUp _ _

/-! ## What goes unnoted -/

section

variable {message : String} (level : Level) (node : Option String) (data : Option Json)

theorem unnoted_log (h : ∀ start ∈ Note.starts, Text.Apart start message) :
    e.Unnoted (e.log moment level node message data) := by
  refine ⟨?_, ?_, rfl, rfl⟩
  · rw [replay_log, Note.kind?_of_apart data h]
    exact List.append_nil _
  · rw [answers_log, Note.kind?_of_apart data h]
    exact List.append_nil _

/-- An entry with a text that only begins in a known way. -/
theorem unnoted_log_append {start : String} (h : ∀ known ∈ Note.starts, Text.Apart known start)
    (rest : String) : e.Unnoted (e.log moment level node (start ++ rest) data) :=
  e.unnoted_log moment level node data fun known hknown => (h known hknown).append rest

end

theorem unnoted_move (next : Status) : e.Unnoted (e.move moment next) := by
  unfold move move?
  cases e.status.canMoveTo next with
  | true => exact ⟨rfl, rfl, rfl, rfl⟩
  | false => exact .refl e

theorem unnoted_observe (cancelled : Bool) : e.Unnoted (e.observe moment cancelled) := by
  unfold observe
  split
  next => exact (e.unnoted_move moment _).trans (unnoted_log _ _ _ _ _ (by decide))
  next => exact .refl e

theorem unnoted_stop : e.Unnoted (e.stop moment n) := by
  unfold stop
  split
  next => exact (e.unnoted_move moment _).trans (unnoted_log _ _ _ _ _ (by decide))
  next => exact .refl e

theorem unnoted_settle (outcome : Except EngineFault Unit) :
    e.Unnoted (e.settle moment outcome) := by
  cases outcome with
  | ok =>
    rw [settle, complete]
    split
    next => exact (e.unnoted_move moment _).trans (unnoted_log _ _ _ _ _ (by decide))
    next => exact .refl e
  | error fault =>
    let moved := e.move moment .failed
    let recorded := moved.recordError moment none fault.message none fault.isRetryable
    -- The error is recorded against the run as a whole.
    have hrecorded : moved.Unnoted recorded := by
      refine ⟨rfl, rfl, ?_, rfl⟩
      simp [recorded, recordError, nodeErrors]
    have hlogged : recorded.Unnoted (e.settle moment (.error fault)) :=
      recorded.unnoted_log_append moment .error none none (by decide) fault.message
    exact ((e.unnoted_move moment _).trans hrecorded).trans hlogged

theorem unnoted_noteSkipped (source connection : String) :
    e.Unnoted (e.noteSkipped moment source connection) := by
  rw [noteSkipped, String.append_assoc]
  exact e.unnoted_log_append moment _ _ _ (by decide) _

theorem unnoted_check (condition : Condition) (node : Option String) :
    e.Unnoted (e.check moment condition node).2 := by
  unfold check
  split
  next => exact .refl e
  next => exact e.unnoted_log_append moment _ _ _ (by decide) _

theorem unnoted_follows (source : String) (c : Connection) :
    e.Unnoted (Funnel.follows moment source e c).2 := by
  unfold Funnel.follows
  cases c.condition with
  | none => exact .refl e
  | some condition =>
    have hcheck := e.unnoted_check moment condition (some source)
    dsimp only
    split
    next e' he => rwa [he] at hcheck
    next e' he =>
      rw [he] at hcheck
      exact hcheck.trans (e'.unnoted_noteSkipped moment source c.id)

theorem unnoted_target (f : Funnel) (source id : String) :
    e.Unnoted (f.target moment source e id).2 := by
  unfold Funnel.target
  split
  next => exact .refl e
  next =>
    rw [noteMissing, String.append_assoc]
    exact e.unnoted_log_append moment _ _ _ (by decide) _

theorem unnoted_targets (f : Funnel) (source : String) (connections : List Connection) :
    e.Unnoted (f.targets moment source connections e).2 := by
  induction connections generalizing e with
  | nil => exact .refl e
  | cons c rest ih =>
    have hfollows := e.unnoted_follows moment source c
    unfold Funnel.targets
    split
    next e' he =>
      rw [he] at hfollows
      exact (hfollows.trans (e'.unnoted_target moment f source c.target)).trans (ih _)
    next e' he =>
      rw [he] at hfollows
      exact hfollows.trans (ih e')

/-- The choice of the next nodes says nothing about attempts. -/
theorem unnoted_onward (f : Funnel) (named : Option String) :
    e.Unnoted (f.onward moment n named e).2 := by
  cases named with
  | none => exact e.unnoted_targets moment f n.id n.connections
  | some id => exact e.unnoted_target moment f n.id id

end Execution

end Outreach
