import Outreach.Proofs.Run.Retries
import Outreach.Proofs.Run.Soundness
import Outreach.Proofs.Run.Termination

/-!
# Targets that do not exist

A target that does not exist is noted in the log and passed over. In an accepted funnel every
connection leads to a node, so what goes astray there are the jumps of conditions: the notes in the
log of a run are, one by one, those of its attempts at conditions that chose a node which does not
exist (`Run.strays_noted`).
-/

namespace Outreach

/-- A note that a target does not exist: the node where it is a target, and the text. -/
structure Stray where
  source : Option String
  text : String
  deriving DecidableEq

namespace Stray

/-- How the text of a note begins. -/
def start : String := "next node '"

/-- The note that a target of a node does not exist. -/
def note (source id : String) : Stray :=
  ⟨some source, "next node '" ++ id ++ "' not found; skipping"⟩

end Stray

/-- The notes of targets that do not exist, in order. -/
def Execution.strays (e : Execution) : List Stray :=
  (e.noted Stray.start).map fun entry => ⟨entry.node, entry.message⟩

/-! ## What is noted -/

namespace Execution

variable (e : Execution) (moment : Moment)

theorem strays_of_noted {e e' : Execution} (h : e'.noted Stray.start = e.noted Stray.start) :
    e'.strays = e.strays :=
  congrArg (List.map _) h

theorem strays_noteMissing (source id : String) :
    (e.noteMissing moment source id).strays = e.strays ++ [Stray.note source id] := by
  have hstart : Stray.start.toList <+: ("next node '" ++ id ++ "' not found; skipping").toList := by
    rw [String.append_assoc, String.toList_append]
    exact List.prefix_append _ _
  rw [strays, noteMissing, noted_log_of_prefix _ _ hstart, List.map_append]
  rfl

theorem strays_settle (outcome : Except EngineFault Unit) :
    (e.settle moment outcome).strays = e.strays := by
  cases outcome with
  | ok => exact strays_of_noted (e.noted_complete moment (by decide))
  | error fault => exact strays_of_noted (e.noted_abort moment fault (by decide))

theorem strays_follows (source : String) (c : Connection) :
    (Funnel.follows moment source e c).2.strays = e.strays := by
  have hfault : Text.Apart Stray.start "condition evaluation failed: " := by decide
  have hskipped : Text.Apart Stray.start "connection '" := by decide
  unfold Funnel.follows
  cases c.condition with
  | none => rfl
  | some condition =>
    dsimp only
    unfold check
    cases condition.evaluate e.vars with
    | ok answer =>
      cases answer with
      | true => rfl
      | false => exact strays_of_noted (e.noted_noteSkipped moment hskipped source c.id)
    | error fault =>
      refine strays_of_noted ((noted_noteSkipped _ moment hskipped source c.id).trans ?_)
      exact e.noted_log moment (hfault.append _) _ _ _

end Execution

/-- What is noted of a node that was named. -/
def Funnel.stray? (f : Funnel) (source : String) (named : Option String) : Option Stray :=
  named.bind fun id => if (f.node? id).isNone then some (.note source id) else none

/-- What is noted of an attempt: that it was at a condition which chose a node that does not exist. -/
def Sighting.stray? (f : Funnel) : Sighting → Option Stray
  | .attempt n seen => f.stray? n.id (n.jump? seen.vars)
  | .snapshot _ => none

namespace Execution

variable {f : Funnel} {n : Node} (e : Execution) (moment : Moment)

theorem strays_target (source id : String) :
    (f.target moment source e id).2.strays =
      e.strays ++ (f.stray? source (some id)).toList := by
  unfold Funnel.target
  cases hnode : f.node? id with
  | some node => simp [Funnel.stray?, hnode]
  | none => simp [Funnel.stray?, hnode, strays_noteMissing]

/-- Connections that lead to nodes leave no note. -/
theorem strays_targets (source : String) {connections : List Connection}
    (hc : ∀ c ∈ connections, (f.node? c.target).isSome = true) :
    (f.targets moment source connections e).2.strays = e.strays := by
  induction connections generalizing e with
  | nil => rfl
  | cons c rest ih =>
    obtain ⟨hfirst, hrest⟩ := List.forall_mem_cons.mp hc
    have hfollows := e.strays_follows moment source c
    unfold Funnel.targets
    split
    next e' he =>
      rw [he] at hfollows
      have htarget := e'.strays_target (f := f) moment source c.target
      obtain ⟨node, hnode⟩ := Option.isSome_iff_exists.mp hfirst
      dsimp only
      rw [ih _ hrest, htarget, hfollows]
      simp [Funnel.stray?, hnode]
    next e' he =>
      rw [he] at hfollows
      rw [ih _ hrest, hfollows]

theorem strays_onward (hc : ∀ c ∈ n.connections, (f.node? c.target).isSome = true)
    (named : Option String) :
    (f.onward moment n named e).2.strays = e.strays ++ (f.stray? n.id named).toList := by
  cases named with
  | none =>
    rw [Funnel.onward, e.strays_targets moment n.id hc]
    simp [Funnel.stray?]
  | some id => exact e.strays_target moment n.id id

end Execution

namespace Funnel.Accepted

variable {f : Funnel} {registry : Registry} {limits : Limits} {n : Node}

/-- The connections of an accepted funnel lead to nodes. -/
theorem isSome_target (h : f.Accepted registry limits) (hn : n ∈ f.nodes) :
    ∀ c ∈ n.connections, (f.node? c.target).isSome = true :=
  fun c hc => isSome_node?_iff.mpr ((h.nodes n hn).connections c hc).target

end Funnel.Accepted

namespace Sighting

/-- Nothing went astray exactly if every node that a condition chose exists. -/
theorem filterMap_stray?_eq_nil_iff {f : Funnel} {trace : List Sighting} :
    trace.filterMap (stray? f) = [] ↔ ∀ n seen id, attempt n seen ∈ trace →
      n.jump? seen.vars = some id → (f.node? id).isSome = true := by
  rw [List.filterMap_eq_nil_iff]
  constructor
  · intro h n seen id hseen hjump
    have hnone := h _ hseen
    rw [stray?, hjump, Funnel.stray?, Option.bind_some] at hnone
    cases hnode : f.node? id with
    | some m => rfl
    | none => simp [hnode] at hnone
  · intro h sighting hmem
    cases sighting with
    | snapshot => rfl
    | attempt n seen =>
      cases hjump : n.jump? seen.vars with
      | none => rw [stray?, hjump]; rfl
      | some id =>
        obtain ⟨m, hm⟩ := Option.isSome_iff_exists.mp (h n seen id hmem hjump)
        simp [stray?, Funnel.stray?, hjump, hm]

end Sighting

/-! ## Walks -/

namespace Traversal

/-- The log of a walk tells of every target that went astray, but for one that is still owed. -/
def Owes (f : Funnel) (owed : Option Stray) (t : Traversal) : Prop :=
  t.trace.filterMap (Sighting.stray? f) = t.execution.strays ++ owed.toList

variable {engine : Engine} {f : Funnel} {owed : Option Stray} {t : Traversal} {wake : Wake}
  {n : Node}

theorem Owes.of_noted {e : Execution} (h : t.Owes f owed)
    (he : e.noted Stray.start = t.execution.noted Stray.start) :
    Owes f owed { t with execution := e } := by
  rw [Owes, Execution.strays_of_noted he]
  exact h

theorem Owes.fail (h : t.Owes f owed) (fault : EngineFault) :
    (t.fail engine wake n fault).Owes f owed := by
  have hnoted : (t.fail engine wake n fault).execution.noted Stray.start =
      t.execution.noted Stray.start := by
    unfold Traversal.fail
    dsimp only
    split
    next => exact Execution.noted_noteRetry _ _ _ _ (by decide) _
    next => exact Execution.noted_giveUp _ _ _ _ (by decide)
  rw [Owes, trace_fail, Execution.strays_of_noted hnoted]
  exact h

theorem Owes.settle (h : t.Owes f owed) (step : Step) : (t.settle wake n step).Owes f owed := by
  have hnoted : (t.settle wake n step).execution.noted Stray.start =
      t.execution.noted Stray.start :=
    t.execution.noted_observe wake.moment (by decide) wake.cancelled
  rw [Owes, filterMap_settle fun _ => rfl, Execution.strays_of_noted hnoted]
  exact h

section

variable (hc : ∀ c ∈ n.connections, (f.node? c.target).isSome = true)

include hc

/-- When a walk goes on from a node, it notes what it owes there. -/
theorem Owes.conclude_of_goesOn {result : ActionResult} (hsuccess : result.success = true)
    (hcontinue : result.shouldContinue = true) (h : t.Owes f (f.stray? n.id result.nextNode)) :
    (t.conclude engine f wake n result).Owes f none := by
  let e := t.execution.take wake.moment n result
  let e' := (f.onward wake.moment n result.nextNode e).2
  have hconclude : t.conclude engine f wake n result =
      Traversal.settle { t with execution := e' } wake n
      (.proceed (f.onward wake.moment n result.nextNode e).1) := by
    unfold Traversal.conclude
    dsimp only
    rw [hsuccess, hcontinue]
    rfl
  have hnoted : e'.strays = t.execution.strays ++ (f.stray? n.id result.nextNode).toList := by
    dsimp only [e', e]
    rw [e.strays_onward wake.moment hc]
    exact congrArg (· ++ _)
      (Execution.strays_of_noted (t.execution.noted_take wake.moment n (by decide) result))
  have honward : Owes f none { t with execution := e' } := by
    rw [Owes, hnoted, Option.toList_none, List.append_nil]
    exact h
  rw [hconclude]
  exact honward.settle _

/-- A result that names no node to jump to adds no note. -/
theorem Owes.conclude {result : ActionResult} (hnone : result.nextNode = none)
    (h : t.Owes f none) : (t.conclude engine f wake n result).Owes f none := by
  have htaken : Owes f none { t with execution := t.execution.take wake.moment n result } :=
    h.of_noted (t.execution.noted_take wake.moment n (by decide) result)
  cases hsuccess : result.success with
  | false =>
    unfold Traversal.conclude
    dsimp only
    rw [hsuccess]
    exact htaken.fail _
  | true =>
    cases hcontinue : result.shouldContinue with
    | false =>
      unfold Traversal.conclude
      dsimp only
      rw [hsuccess, hcontinue]
      exact htaken.settle _
    | true =>
      refine conclude_of_goesOn hc hsuccess hcontinue ?_
      rw [hnone]
      exact h

theorem Owes.work {task : Task} (hnone : ∀ result, task = .done result → result.nextNode = none)
    (h : t.Owes f none) (isExempt : Bool) :
    (t.work engine f wake n isExempt task).Owes f none := by
  cases task with
  | done result => exact h.conclude hc (hnone result rfl)
  | sleep => exact h
  | ask => exact h

end

section

variable {channels : List Channel} {checked limits : Limits}
  (hf : f.Accepted (.builtIn channels) checked)

include hf

/-- Whatever an attempt at a condition owes is noted before the next wait. -/
theorem Owes.attempt (h : t.Owes f none) (hn : n ∈ f.nodes) :
    (t.attempt ⟨.builtIn channels, limits⟩ f wake n).Owes f none := by
  have hc := hf.isSome_target hn
  let e := t.execution.enter wake.moment n
  let entered := see { t with execution := e } (.attempt n e)
  have hentered : entered.Owes f (f.stray? n.id (n.jump? e.vars)) := by
    have htrace : entered.trace.filterMap (Sighting.stray? f) =
        t.trace.filterMap (Sighting.stray? f) ++ (f.stray? n.id (n.jump? e.vars)).toList := by
      dsimp only [entered, see]
      rw [List.filterMap_append]
      cases hstray : f.stray? n.id (n.jump? e.vars) <;> simp [Sighting.stray?, hstray]
    have hstrays : entered.execution.strays = t.execution.strays :=
      Execution.strays_of_noted (t.execution.noted_enter wake.moment n (by decide))
    rw [Owes, htrace, h, hstrays, Option.toList_none, List.append_nil]
  obtain ⟨x, hx, -⟩ := (hf.nodes n hn).executor
  have hattempt : t.attempt ⟨.builtIn channels, limits⟩ f wake n =
      entered.work ⟨.builtIn channels, limits⟩ f wake n x.isExempt
        (x.perform wake.moment.now n e) := by
    unfold Traversal.attempt
    dsimp only
    rw [hx]
  rw [hattempt]
  cases hjump : n.jump? e.vars with
  | none =>
    rw [hjump] at hentered
    have hends := hf.ends hn hx wake.moment.now e
    refine hentered.work hc (fun result hresult => ?_) x.isExempt
    rw [hresult] at hends
    cases hends with
    | done h => exact h.2.trans hjump
  | some id =>
    obtain ⟨r, hr, hsuccess, hcontinue, hnext⟩ :=
      Registry.perform_of_jump? hx wake.moment.now hjump
    rw [hjump, ← hnext] at hentered
    rw [hr]
    exact hentered.conclude_of_goesOn hc hsuccess hcontinue

theorem Owes.advance (h : t.Owes f none) (hpending : t.pending ⊆ f.nodes) :
    (t.advance ⟨.builtIn channels, limits⟩ f wake).Owes f none := by
  unfold Traversal.advance
  split
  next => exact h
  next n rest hrest =>
    have hn : n ∈ f.nodes := hpending (hrest ▸ List.mem_cons_self)
    have hobserved : (t.execution.observe wake.moment wake.cancelled).noted Stray.start = _ :=
      t.execution.noted_observe wake.moment (by decide) wake.cancelled
    dsimp only
    split
    next => exact attempt hf (h.of_noted hobserved) hn
    next => exact h.of_noted hobserved

theorem Owes.proceed (h : t.Owes f none) (hpending : t.pending ⊆ f.nodes) {step : Step}
    (hstep : ∀ next, step = .proceed next → next ⊆ f.nodes) :
    (t.proceed ⟨.builtIn channels, limits⟩ f wake n step).Owes f none := by
  cases step with
  | proceed next =>
    have hpushed : next ++ t.pending ⊆ f.nodes := List.append_subset.mpr ⟨hstep next rfl, hpending⟩
    exact advance (t := { t with pending := next ++ t.pending }) hf h hpushed
  | finish => exact h.of_noted (t.execution.noted_stop wake.moment n (by decide))
  | halt => exact h

/-- **A walk notes what goes astray**, from one wait to the next. -/
theorem Owes.resume (h : t.Owes f none) (hpending : t.pending ⊆ f.nodes)
    (hpoint : t.point.BelongsTo ⟨.builtIn channels, limits⟩ f fun _ task => task.IsUndirected) :
    (t.resume ⟨.builtIn channels, limits⟩ f wake).Owes f none := by
  unfold Traversal.resume
  split
  next => exact h
  next n step hp =>
    rw [hp] at hpoint
    exact h.proceed hf hpending hpoint.2
  next n isExempt task hp =>
    rw [hp] at hpoint
    obtain ⟨hn, hundirected, hwaits, -⟩ := hpoint
    obtain ⟨result, hresult, hnone⟩ := hundirected.continueTask hwaits wake
    split
    next => exact h.fail _
    next budget _ =>
      have hcharged : Owes f none { t with budget } := h
      rw [hresult]
      exact hcharged.conclude (hf.isSome_target hn) hnone
  next n hp =>
    rw [hp] at hpoint
    split
    next => exact h
    next budget _ =>
      have hobserved : Owes f none { t with
          budget, execution := t.execution.observe wake.moment wake.cancelled } :=
        h.of_noted (t.execution.noted_observe wake.moment (by decide) wake.cancelled)
      dsimp only
      split
      next => exact attempt hf hobserved hpoint
      next => exact hobserved.settle .halt

end

end Traversal

/-! ## Runs -/

namespace Run

variable {f : Funnel} {r : Run}

theorem owes_close (h : r.walk.Owes f none) (moment : Moment) (outcome : Except EngineFault Unit)
    (manager : Manager) : (r.close moment outcome manager).1.walk.Owes f none := by
  have hstrays : (r.execution.settle moment outcome).strays = r.walk.execution.strays :=
    r.execution.strays_settle moment outcome
  have htrace : (r.close moment outcome manager).1.walk.trace.filterMap (Sighting.stray? f) =
      r.walk.trace.filterMap (Sighting.stray? f) := by
    simp [close, Traversal.see, Sighting.stray?]
  rw [Traversal.Owes, htrace, h]
  exact congrArg (· ++ Option.toList none) hstrays.symm

theorem owes_follow {walk : Traversal} (h : walk.Owes f none) (r : Run) (moment : Moment)
    (manager : Manager) : (r.follow moment walk manager).1.walk.Owes f none := by
  unfold follow
  dsimp only
  split
  next => exact owes_close (r := { r with phase := .walking, walk }) h ..
  next => exact h

variable {channels : List Channel} {checked limits : Limits} {moment : Moment} {call : Call}

/-- However far a run of an accepted funnel has come, what went astray in it is noted. -/
theorem ComesFrom.owes (hf : call.funnel.Accepted (.builtIn channels) checked)
    (h : r.ComesFrom ⟨.builtIn channels, limits⟩ moment call) : r.walk.Owes call.funnel none := by
  induction h with
  | start manager =>
    have hready : Traversal.Owes call.funnel none (.ready (.ofCall moment call)) := by
      rw [Traversal.Owes, Traversal.ready, Execution.strays,
        Execution.noted_ofCall moment (by decide)]
      rfl
    unfold Run.start
    dsimp only
    split
    next => exact hready
    next => exact owes_close (r := ⟨call.funnel, none, .opening, _⟩) hready ..
  | @resume r h wake manager ih =>
    obtain ⟨hfunnel, hpending, -, -, hpoint⟩ := h.belongsTo (hf.worksWith_isUndirected limits) rfl
    unfold Run.resume
    dsimp only
    rw [hfunnel]
    split
    next =>
      split
      next => exact owes_close ih ..
      next n hentry =>
        have hentries : [n] ⊆ call.funnel.nodes :=
          List.cons_subset.mpr ⟨Funnel.mem_of_entry? hentry, List.nil_subset _⟩
        refine owes_follow ?_ ..
        exact Traversal.Owes.advance (t := { r.walk with
          pending := [n], budget := .limited limits.timeout }) hf ih hentries
    next hphase => exact owes_follow (ih.resume hf hpending (hpoint hphase).1) ..
    next => exact ih
    next => exact ih

/-- **What goes astray in a run of an accepted funnel.** The targets that a run notes as missing are,
in order, those of its attempts at conditions that chose a node which does not exist; so it notes
none exactly if every node that a condition chose in it exists. -/
theorem strays_noted (h : (call.funnel.validate (.builtIn channels) checked).isValid = true)
    (limits : Limits) (moment : Moment) (manager : Manager) (course : Course) (count : Nat) :
    let r := (Run.start moment call manager).1.after ⟨.builtIn channels, limits⟩ course count
    r.execution.strays = r.walk.trace.filterMap (Sighting.stray? call.funnel) ∧
      (r.execution.strays = [] ↔ ∀ n seen id, .attempt n seen ∈ r.walk.trace →
        n.jump? seen.vars = some id → (call.funnel.node? id).isSome = true) := by
  intro r
  have hf := Funnel.isValid_validate_iff.mp h
  have howes : r.walk.Owes call.funnel none :=
    ComesFrom.owes hf ((ComesFrom.start manager).after course count)
  have hstrays : r.execution.strays = r.walk.trace.filterMap (Sighting.stray? call.funnel) := by
    rw [howes, Option.toList_none, List.append_nil]
    rfl
  refine ⟨hstrays, ?_⟩
  rw [hstrays, Sighting.filterMap_stray?_eq_nil_iff]

/-- Both ways of the condition in this funnel lead to nodes, so its runs note nothing. -/
theorem guarded_notes_nothing :
    (Funnel.guarded.validate (.builtIn []) .standard).isValid = true ∧
      ∀ (triggerId : Option String) (vars : Variables) (moment : Moment) (manager : Manager)
          (course : Course) (count : Nat),
        ((Run.start moment ⟨.guarded, triggerId, vars⟩ manager).1.after ⟨.builtIn [], .standard⟩
          course count).execution.strays = [] := by
  have hvalid : (Funnel.guarded.validate (.builtIn []) .standard).isValid = true := by
    decide
  refine ⟨hvalid, fun triggerId vars moment manager course count => ?_⟩
  let call : Call := ⟨.guarded, triggerId, vars⟩
  have hcall : (call.funnel.validate (.builtIn []) .standard).isValid = true := hvalid
  let r := (Run.start moment call manager).1.after ⟨.builtIn [], .standard⟩ course count
  have hr : r.ComesFrom ⟨.builtIn [], .standard⟩ moment call :=
    (ComesFrom.start manager).after course count
  have hnoted : r.execution.strays = [] ↔ _ :=
    (strays_noted hcall .standard moment manager course count).2
  refine hnoted.mpr fun n seen id hseen hjump => ?_
  have hn : n ∈ Funnel.guarded.nodes := hr.isCounted.nodes (List.mem_filterMap.mpr ⟨_, hseen, rfl⟩)
  simp only [Funnel.guarded, List.mem_cons, List.not_mem_nil, or_false] at hn
  rcases hn with rfl | rfl | rfl
  · cases hjump
  · let settings : BranchSettings := ⟨⟨"x", .exists, none⟩, some "c", none⟩
    have hchoice : (Executor.Branch.choose settings seen.vars).nextNode = some id :=
      (Executor.jump?_of_settingsAs rfl rfl seen.vars).symm.trans hjump
    obtain ⟨answer, hnext⟩ := Executor.exists_nextNode_choose settings seen.vars
    rw [hnext] at hchoice
    cases answer with
    | true =>
      cases hchoice
      rfl
    | false => cases hchoice
  · cases hjump

end Run

/-- A condition whose way on, if the answer is no, leads to a node that does not exist. -/
def Funnel.astray : Funnel where
  id := "astray"
  name := ""
  description := none
  version := 1
  nodes := [
    ⟨"a", .condition, "", .object [
      ("condition", .object [("field", .string "x"), ("operator", .string "exists")]),
      ("falseNodeId", .string "ghost")], [], none⟩]
  tags := []
  metadata := []

/-- A run of an accepted funnel may look for a node that does not exist, pass it over and complete. -/
theorem Run.astray_passed_over :
    (Funnel.astray.validate (.builtIn []) .standard).isValid = true ∧
      ∀ (triggerId : Option String) (moment : Moment) (wakes : Nat → Wake),
        let r := Run.after ⟨.builtIn [], .standard⟩
          (Run.start moment ⟨.astray, triggerId, []⟩ (.create 1)).1
          (fun wait => (wakes wait, .create 1)) 2
        r.execution.status = .completed ∧ ∃ entry ∈ r.execution.logs,
          entry.node = some "a" ∧ entry.message = "next node 'ghost' not found; skipping" := by
  refine ⟨by decide, fun triggerId moment wakes => ⟨rfl, ?_⟩⟩
  exact ⟨_, List.mem_of_getElem? (i := 3) rfl, rfl, rfl⟩

end Outreach
