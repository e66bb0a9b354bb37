import Outreach.Engine.Traversal

/-!
# Which nodes come next

A node that a result names comes next, if it exists, and no connection is looked at. Otherwise the
connections that are open lead on, in order: those without a condition, and those whose condition
holds of the variables as the node has left them (`Traversal.conclude_follows_named_or_open`). No
connection has a say in what becomes of another, and what is found on the way is noted in the log and
changes nothing else.
-/

namespace Outreach

/-! ## What is noted on the way -/

/-- What a log entry says, apart from when. -/
structure Remark where
  node : Option String
  level : Level
  message : String
  data : Option Json

/-- What an entry says. -/
def LogEntry.remark (entry : LogEntry) : Remark :=
  ⟨entry.node, entry.level, entry.message, entry.data⟩

namespace Remark

/-- A target does not exist. -/
def missing (source target : String) : Remark :=
  ⟨some source, .warn, "next node '" ++ target ++ "' not found; skipping", none⟩

/-- A connection is not followed. -/
def skipped (source connection : String) : Remark :=
  ⟨some source, .debug, "connection '" ++ connection ++ "' skipped: condition not met", none⟩

/-- A condition cannot be evaluated. -/
def faulty (source : String) (c : Condition) (fault : ConditionFault) : Remark :=
  ⟨some source, Execution.faultLevel fault, "condition evaluation failed: " ++ fault.message,
    some (.record [("field", .string c.field), ("operator", .string c.operator.label)])⟩

end Remark

namespace Execution

/-- One execution is the other with remarks added to its log. -/
def Notes (e : Execution) (remarks : List Remark) (e' : Execution) : Prop :=
  ∃ added, e' = { e with logs := e.logs ++ added } ∧ added.map LogEntry.remark = remarks

variable {e e' e'' : Execution} {remarks more : List Remark}

theorem Notes.refl (e : Execution) : e.Notes [] e :=
  ⟨[], by simp, rfl⟩

theorem Notes.trans (h : e.Notes remarks e') (h' : e'.Notes more e'') :
    e.Notes (remarks ++ more) e'' := by
  obtain ⟨first, rfl, rfl⟩ := h
  obtain ⟨second, rfl, rfl⟩ := h'
  exact ⟨first ++ second, by simp, by simp⟩

theorem Notes.vars_eq (h : e.Notes remarks e') : e'.vars = e.vars := by
  obtain ⟨_, rfl, -⟩ := h
  rfl

theorem notes_log (e : Execution) (moment : Moment) (level : Level) (node : Option String)
    (message : String) (data : Option Json) :
    e.Notes [⟨node, level, message, data⟩] (e.log moment level node message data) :=
  ⟨_, rfl, rfl⟩

end Execution

/-! ## One connection -/

namespace Connection

/-- Whether a connection is open: it has no condition, or one that holds. -/
def isOpen (vars : Variables) (c : Connection) : Bool :=
  match c.condition with
  | none => true
  | some condition =>
    match condition.evaluate vars with
    | .ok holds => holds
    | .error _ => false

/-- What is noted of the condition of a connection. -/
def guardRemarks (vars : Variables) (source : String) (c : Connection) : List Remark :=
  match c.condition with
  | none => []
  | some condition =>
    match condition.evaluate vars with
    | .ok true => []
    | .ok false => [.skipped source c.id]
    | .error fault => [.faulty source condition fault, .skipped source c.id]

end Connection

namespace Funnel

variable (f : Funnel) (moment : Moment) (source : String) (e : Execution)

/-- What is noted of a target. -/
def targetRemarks (id : String) : List Remark :=
  if (f.node? id).isSome then [] else [.missing source id]

/-- What is noted of a connection. -/
def remarks (vars : Variables) (c : Connection) : List Remark :=
  c.guardRemarks vars source ++ if c.isOpen vars then f.targetRemarks source c.target else []

/-- A connection is followed exactly if it is open. -/
theorem follows_spec (c : Connection) :
    (follows moment source e c).1 = c.isOpen e.vars ∧
      e.Notes (c.guardRemarks e.vars source) (follows moment source e c).2 := by
  unfold follows Connection.isOpen Connection.guardRemarks
  cases c.condition with
  | none => exact ⟨rfl, .refl e⟩
  | some condition =>
    dsimp only
    unfold Execution.check
    cases condition.evaluate e.vars with
    | ok holds =>
      cases holds with
      | true => exact ⟨rfl, .refl e⟩
      | false => exact ⟨rfl, e.notes_log moment _ _ _ _⟩
    | error fault =>
      exact ⟨rfl, (e.notes_log moment _ _ _ _).trans (Execution.notes_log _ moment _ _ _ _)⟩

theorem target_spec (id : String) :
    (f.target moment source e id).1 = (f.node? id).toList ∧
      e.Notes (f.targetRemarks source id) (f.target moment source e id).2 := by
  unfold target targetRemarks
  cases f.node? id with
  | none => exact ⟨rfl, e.notes_log moment _ _ _ _⟩
  | some node => exact ⟨rfl, .refl e⟩

/-- The nodes that open connections lead to. -/
def beyond (vars : Variables) (connections : List Connection) : List Node :=
  (connections.filter (Connection.isOpen vars)).filterMap fun c => f.node? c.target

theorem targets_spec (connections : List Connection) :
    (f.targets moment source connections e).1 = f.beyond e.vars connections ∧
      e.Notes (connections.flatMap (f.remarks source e.vars))
        (f.targets moment source connections e).2 := by
  induction connections generalizing e with
  | nil => exact ⟨rfl, .refl e⟩
  | cons c rest ih =>
    obtain ⟨hopen, hguard⟩ := follows_spec moment source e c
    rw [List.flatMap_cons, remarks, targets]
    split
    next e' he =>
      rw [he] at hopen hguard
      obtain ⟨hfirst, hmissing⟩ := f.target_spec moment source e' c.target
      obtain ⟨hothers, hrest⟩ := ih (f.target moment source e' c.target).2
      rw [hmissing.vars_eq, hguard.vars_eq] at hothers hrest
      rw [if_pos hopen.symm]
      refine ⟨?_, (hguard.trans hmissing).trans hrest⟩
      change (f.target moment source e' c.target).1 ++ _ = _
      rw [hfirst, hothers]
      cases hnode : f.node? c.target <;> simp [beyond, ← hopen, hnode]
    next e' he =>
      rw [he] at hopen hguard
      obtain ⟨hothers, hrest⟩ := ih e'
      rw [hguard.vars_eq] at hothers hrest
      have hclosed : ¬ c.isOpen e.vars = true := by simp [← hopen]
      rw [if_neg hclosed, List.append_nil]
      refine ⟨?_, hguard.trans hrest⟩
      rw [hothers]
      simp [beyond, hclosed]

/-- Every connection has its own say and no other. -/
theorem beyond_append (vars : Variables) (before behind : List Connection) :
    f.beyond vars (before ++ behind) = f.beyond vars before ++ f.beyond vars behind := by
  rw [beyond, List.filter_append, List.filterMap_append]
  rfl

end Funnel

/-! ## After a node -/

namespace Traversal

/-- **What comes after a node that has worked and does not stop the run.** With the variables of its
result on top of those of the run, the nodes to go on with are the node that the result names, if it
exists, and if it names none those that open connections lead to, in the order of the connections. To
find them out adds the remarks on them to the log and changes nothing else. A connection makes no
difference to where the others lead. -/
theorem conclude_follows_named_or_open (engine : Engine) (f : Funnel) (t : Traversal) (wake : Wake)
    (n : Node) {result : ActionResult} (hsuccess : result.success = true)
    (hcontinues : result.shouldContinue = true) :
    let e := t.execution.take wake.moment n result
    let vars := Members.merge t.execution.vars (result.vars.getD [])
    ∃ next added,
      t.conclude engine f wake n result =
        ({ t with execution := { e with logs := e.logs ++ added } }).settle wake n (.proceed next) ∧
      (∀ id, result.nextNode = some id → next = (f.node? id).toList ∧
        added.map LogEntry.remark = f.targetRemarks n.id id) ∧
      (result.nextNode = none → next = f.beyond vars n.connections ∧
        added.map LogEntry.remark = n.connections.flatMap (f.remarks n.id vars) ∧
        ∀ before c behind, n.connections = before ++ c :: behind →
          next = f.beyond vars before ++ f.beyond vars [c] ++ f.beyond vars behind ∧
          (f.onward wake.moment { n with connections := before ++ behind } none e).1 =
            f.beyond vars before ++ f.beyond vars behind) := by
  intro e vars
  have hconclude : t.conclude engine f wake n result =
      ({ t with execution := (f.onward wake.moment n result.nextNode e).2 }).settle wake n
        (.proceed (f.onward wake.moment n result.nextNode e).1) := by
    simp only [conclude, hsuccess, hcontinues]
    rfl
  cases hnamed : result.nextNode with
  | some id =>
    obtain ⟨hnext, added, hlog, hremarks⟩ := f.target_spec wake.moment n.id e id
    rw [hnamed, Funnel.onward, hnext, hlog] at hconclude
    refine ⟨_, added, hconclude, fun _ hid => ?_, nofun⟩
    obtain rfl := Option.some.inj hid
    exact ⟨rfl, hremarks⟩
  | none =>
    obtain ⟨hnext, added, hlog, hremarks⟩ := f.targets_spec wake.moment n.id e n.connections
    rw [hnamed, Funnel.onward, hnext, hlog] at hconclude
    refine ⟨_, added, hconclude, nofun, fun _ => ⟨rfl, hremarks, ?_⟩⟩
    intro before c behind hconnections
    constructor
    · have hsplit : before ++ c :: behind = before ++ [c] ++ behind := by simp
      rw [hconnections, hsplit, f.beyond_append, f.beyond_append]
      rfl
    · exact (f.targets_spec wake.moment n.id e (before ++ behind)).1.trans
        (f.beyond_append vars before behind)

end Traversal

/-- A node with a connection of every kind: open ones, one to a node that does not exist, one whose
condition asks for a variable, and two whose conditions cannot be evaluated. -/
def Node.crossing : Node where
  id := "a"
  type := .custom "step"
  name := ""
  settings := .null
  connections := [
    ⟨"c1", "a", "b", none⟩,
    ⟨"c2", "a", "b", some ⟨" ", .exists, none⟩⟩,
    ⟨"c3", "a", "c", some ⟨"x", .equals, some (.string "yes")⟩⟩,
    ⟨"c4", "a", "ghost", none⟩,
    ⟨"c5", "a", "c", some ⟨"x", .unknown "resembles", none⟩⟩,
    ⟨"c6", "a", "b", none⟩]
  position := none

/-- The node, and the two nodes that its connections lead to. -/
def Funnel.crossroads : Funnel where
  id := "crossroads"
  name := ""
  description := none
  version := 1
  nodes := [.crossing, ⟨"b", .finish, "", .null, [], none⟩, ⟨"c", .finish, "", .null, [], none⟩]
  tags := []
  metadata := []

/-- The node puts in the variable that a condition asks for, and the open connections lead on. -/
theorem Traversal.crossing_follows_open :
    let result := ActionResult.proceed.withVariable "x" (.string "yes")
    result.success = true ∧ result.shouldContinue = true ∧
      ∀ (moment : Moment) (wake : Wake),
        let t := Traversal.ready (.create moment "crossroads" none [])
        ∃ next, (t.conclude ⟨[], .standard⟩ .crossroads wake .crossing result).point =
            .saving .crossing (.proceed next) ∧
          next.map Node.id = ["b", "c", "b"] := by
  refine ⟨rfl, rfl, fun moment wake => ?_⟩
  obtain ⟨next, added, hconclude, -, hopen⟩ :=
    @Traversal.conclude_follows_named_or_open ⟨[], .standard⟩ .crossroads
      (.ready (.create moment "crossroads" none [])) wake .crossing
      (ActionResult.proceed.withVariable "x" (.string "yes")) rfl rfl
  obtain ⟨hnext, -, -⟩ := hopen rfl
  have hbeyond :
      (Funnel.crossroads.beyond [("x", .string "yes")] Node.crossing.connections).map Node.id =
        ["b", "c", "b"] := by decide
  exact ⟨next, congrArg Traversal.point hconclude, (congrArg (List.map Node.id) hnext).trans hbeyond⟩

end Outreach
