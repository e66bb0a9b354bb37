import Outreach.Engine.Run
import Outreach.Proofs.Funnel.Routes
import Outreach.Proofs.Text.Start

/-!
# Funnels without an entry

A funnel has no entry if it has no trigger and a connection leads to each of its nodes. If connections
declare the nodes that hold them, an edge then leads to every vertex of the graph, which has a cycle
therefore. So an examination that finds no entry finds a cycle too, and a funnel without a cycle can
be started (`Funnel.entry_unless_cycle`).
-/

namespace Outreach

/-! ## What an examination says -/

namespace Verdict

variable {message : String}

theorem mem_errors_error (v : Verdict) (other : String) :
    message ∈ (v.error other).errors ↔ message ∈ v.errors ∨ message = other := by
  rw [error, List.mem_append, List.mem_singleton]

theorem mem_errors_errorIf (v : Verdict) (found : Bool) (other : String) :
    message ∈ (v.errorIf found other).errors ↔
      message ∈ v.errors ∨ found = true ∧ message = other := by
  cases found <;> simp [errorIf, error]

theorem errors_warningIf (v : Verdict) (found : Bool) (other : String) :
    (v.warningIf found other).errors = v.errors := by
  cases found <;> rfl

/-- What checks never say is among the errors afterwards exactly if it was before. -/
theorem mem_errors_foldl {α : Type} {check : Verdict → α → Verdict} {items : List α}
    (h : ∀ v, ∀ a ∈ items, message ∈ (check v a).errors ↔ message ∈ v.errors) (v : Verdict) :
    message ∈ (items.foldl check v).errors ↔ message ∈ v.errors := by
  induction items generalizing v with
  | nil => rfl
  | cons a rest ih =>
    obtain ⟨ha, hrest⟩ := List.forall_mem_cons.mp (fun a ha v => h v a ha)
    rw [List.foldl_cons, ih fun v a ha => hrest a ha v, ha]

end Verdict

namespace Funnel

variable {f : Funnel} {registry : Registry} {limits : Limits} {message : String} {v : Verdict}

/-- What is said of a funnel without an entry. -/
def noEntry : String :=
  "funnel has no entry node (no trigger and every node has an incoming connection)"

/-- What is said of a funnel with a cycle. -/
def cycleThrough (id : String) : String :=
  "funnel contains a cycle through node '" ++ id ++ "'"

theorem apart_cycleThrough {start : String}
    (h : Text.Apart start "funnel contains a cycle through node '") (id : String) :
    Text.Apart start (cycleThrough id) :=
  (h.append id).append "'"

theorem noEntry_ne_cycleThrough (id : String) : noEntry ≠ cycleThrough id :=
  (apart_cycleThrough (by decide) id).ne

theorem mem_errors_checkIds (h : Text.Apart "duplicate node ID '" message) (seen : List String)
    (nodes : List Node) (v : Verdict) :
    message ∈ (checkIds seen nodes v).errors ↔ message ∈ v.errors := by
  induction nodes generalizing seen v with
  | nil => rfl
  | cons n rest ih =>
    have hne := (((Text.BeginsWith.self _).append n.id).append "'").ne h.1
    rw [checkIds, ih, Verdict.mem_errors_errorIf]
    simp [hne]

theorem beginsWith_scope (n : Node) : Text.BeginsWith "node '" (scope n) :=
  ((Text.BeginsWith.self _).append n.id).append "'"

theorem mem_errors_checkCondition (h : Text.Apart "node '" message) {about : String}
    (habout : Text.BeginsWith "node '" about) (v : Verdict) (condition : Condition) :
    message ∈ (checkCondition about v condition).errors ↔ message ∈ v.errors := by
  have hoperator := (((habout.append " uses unknown operator '").append
    condition.operator.label).append "'").ne h.1
  have hfield := (habout.append " has an empty condition field").ne h.1
  rw [checkCondition, Verdict.mem_errors_errorIf, Verdict.mem_errors_errorIf]
  simp [hoperator, hfield]

theorem mem_errors_checkConnection (h : Text.Apart "node '" message) (n : Node) (v : Verdict)
    (c : Connection) :
    message ∈ (f.checkConnection n v c).errors ↔ message ∈ v.errors := by
  have habout : Text.BeginsWith "node '" (scope n ++ ": connection '" ++ c.id ++ "'") :=
    (((beginsWith_scope n).append ": connection '").append c.id).append "'"
  have htarget := (((habout.append " targets unknown node '").append c.target).append "'").ne h.1
  have hsame (w : Verdict) : message ∈ (w.errorIf (!f.ids.contains c.target)
      (scope n ++ ": connection '" ++ c.id ++ "'" ++ " targets unknown node '" ++ c.target ++
        "'")).errors ↔ message ∈ w.errors := by
    rw [Verdict.mem_errors_errorIf]
    simp [htarget]
  unfold checkConnection
  dsimp only
  cases c.condition with
  | none => rw [hsame, Verdict.errors_warningIf]
  | some condition => rw [mem_errors_checkCondition h habout, hsame, Verdict.errors_warningIf]

/-- Every error of a node begins with the name of a node. -/
theorem mem_errors_checkNode (h : Text.Apart "node '" message) (v : Verdict) (n : Node) :
    message ∈ (f.checkNode registry v n).errors ↔ message ∈ v.errors := by
  unfold checkNode
  dsimp only
  rw [Verdict.mem_errors_foldl fun w c _ => mem_errors_checkConnection h n w c]
  cases registry.executor? n.type with
  | none =>
    have hmissing := ((((beginsWith_scope n).append ": no executor registered for type '").append
      n.type.label).append "'").ne h.1
    rw [Verdict.mem_errors_error]
    simp [hmissing]
  | some executor =>
    have hpart : message ∉ (executor.examine n.settings).errors.map (Verdict.within (scope n)) := by
      intro hmem
      obtain ⟨part, -, rfl⟩ := List.mem_map.mp hmem
      exact h.1 (((beginsWith_scope n).append ": ").append part)
    change message ∈ v.errors ++ (executor.examine n.settings).errors.map _ ↔ _
    simp only [List.mem_append, hpart, or_false]

/-! ## The two errors -/

theorem errors_checkGraph (v : Verdict) :
    (f.checkGraph limits v).errors = v.errors ++ (f.checkGraph limits .valid).errors := by
  unfold checkGraph
  dsimp only
  split
  next => rfl
  next =>
    split
    next => exact (List.append_nil _).symm
    next start _ =>
      unfold Verdict.errorIf
      split
      next => rfl
      next => exact (List.append_nil _).symm

theorem errors_checkGraph_of_none (limits : Limits) (h : f.graph.order? = none) :
    ∃ id, (f.checkGraph limits .valid).errors = [cycleThrough id] := by
  unfold checkGraph
  dsimp only
  rw [h]
  exact ⟨_, rfl⟩

/-- Of a graph without a cycle nothing is said but its depth. -/
theorem beginsWith_of_order? {order : List Nat} (h : f.graph.order? = some order)
    (hmem : message ∈ (f.checkGraph limits .valid).errors) : Text.BeginsWith "funnel is " message := by
  unfold checkGraph at hmem
  dsimp only at hmem
  rw [h] at hmem
  dsimp only at hmem
  split at hmem
  next => cases hmem
  next =>
    rw [Verdict.mem_errors_errorIf] at hmem
    obtain ⟨-, rfl⟩ := hmem.resolve_left List.not_mem_nil
    exact (((Text.BeginsWith.self _).append _).append _).append _

/-- What is said neither of a node nor of the number of nodes is said of the entry or of the graph. -/
theorem mem_errors_validate_iff (hne : f.nodes ≠ []) (hnode : Text.Apart "node '" message)
    (hid : Text.Apart "duplicate node ID '" message)
    (hsize : ∀ count rest, message ≠ "funnel has " ++ Numeral.text count ++ rest) :
    message ∈ (f.validate registry limits).errors ↔
      f.entry? = none ∧ message = noEntry ∨ message ∈ (f.checkGraph limits .valid).errors := by
  have hempty : f.nodes.isEmpty = false := by simpa using hne
  have hcount := hsize f.nodes.length
    (" nodes, more than the limit of " ++ Numeral.text limits.nodes)
  rw [← String.append_assoc] at hcount
  unfold validate
  rw [hempty]
  simp only [Bool.false_eq_true, if_false]
  rw [errors_checkGraph, List.mem_append,
    Verdict.mem_errors_foldl fun w n _ => mem_errors_checkNode hnode w n,
    Verdict.mem_errors_errorIf, mem_errors_checkIds hid, Verdict.mem_errors_errorIf]
  simp [hcount, Verdict.valid, noEntry]

/-- Where a letter stands in the one message, a numeral stands in the other. -/
theorem noEntry_ne_size (count : Nat) (rest : String) :
    noEntry ≠ "funnel has " ++ Numeral.text count ++ rest := by
  have hsize : Text.BeginsWith ("funnel has " ++ Numeral.text count)
      ("funnel has " ++ Numeral.text count ++ rest) := (Text.BeginsWith.self _).append rest
  refine hsize.ne fun hprefix => ?_
  have hletters : noEntry = "funnel has " ++
      "no entry node (no trigger and every node has an incoming connection)" := rfl
  rw [Text.BeginsWith, hletters, String.toList_append, String.toList_append,
    List.prefix_append_right_inj, Numeral.text, String.toList_ofList] at hprefix
  obtain ⟨c, digits, hdigits⟩ := List.exists_cons_of_ne_nil (Numeral.render_ne_nil count)
  have hdigit : Numeral.isDigit c = true :=
    List.all_eq_true.mp (Numeral.all_isDigit_render count) c (hdigits ▸ List.mem_cons_self)
  rw [hdigits] at hprefix
  obtain ⟨rfl, -⟩ := List.cons_prefix_cons.mp hprefix
  cases hdigit

/-- An examination says that there is no entry exactly if there is none. -/
theorem noEntry_mem_errors_iff (hne : f.nodes ≠ []) :
    noEntry ∈ (f.validate registry limits).errors ↔ f.entry? = none := by
  have hgraph : noEntry ∉ (f.checkGraph limits .valid).errors := by
    intro hmem
    cases horder : f.graph.order? with
    | none =>
      obtain ⟨id, herrors⟩ := errors_checkGraph_of_none limits horder
      rw [herrors, List.mem_singleton] at hmem
      exact noEntry_ne_cycleThrough id hmem
    | some order =>
      have hapart : Text.Apart "funnel is " noEntry := by decide
      exact hapart.1 (beginsWith_of_order? horder hmem)
  rw [mem_errors_validate_iff hne (by decide) (by decide) noEntry_ne_size]
  simp [hgraph]

/-- An examination says that there is a cycle exactly if there is one. -/
theorem cycleThrough_mem_errors_iff (hne : f.nodes ≠ []) :
    (∃ id, cycleThrough id ∈ (f.validate registry limits).errors) ↔ ¬ f.graph.IsAcyclic := by
  have hvalidate (id : String) : cycleThrough id ∈ (f.validate registry limits).errors ↔
      cycleThrough id ∈ (f.checkGraph limits .valid).errors := by
    have hentry : cycleThrough id ≠ noEntry := (noEntry_ne_cycleThrough id).symm
    have hsize (count : Nat) (rest : String) :
        cycleThrough id ≠ "funnel has " ++ Numeral.text count ++ rest :=
      (((Text.BeginsWith.self _).append _).append _).ne (apart_cycleThrough (by decide) id).1
    rw [mem_errors_validate_iff hne (apart_cycleThrough (by decide) id)
      (apart_cycleThrough (by decide) id) hsize]
    simp [hentry]
  simp only [hvalidate]
  rw [← Graph.isSome_order?_iff]
  cases horder : f.graph.order? with
  | none =>
    obtain ⟨id, herrors⟩ := errors_checkGraph_of_none limits horder
    refine iff_of_true ⟨id, ?_⟩ Bool.false_ne_true
    rw [herrors, List.mem_singleton]
  | some order =>
    refine iff_of_false ?_ (not_not_intro rfl)
    rintro ⟨id, hmem⟩
    have hapart : Text.Apart "funnel is " (cycleThrough id) := apart_cycleThrough (by decide) id
    exact hapart.1 (beginsWith_of_order? horder hmem)

/-! ## The entry -/

/-- Where there is no entry, a connection leads to every node. -/
theorem exists_joins_of_entry? (hf : f.DeclaresHolders) (hentry : f.entry? = none) {id : String}
    (hid : id ∈ f.ids) : ∃ source ∈ f.ids, f.Joins source id := by
  obtain ⟨n, hn, rfl⟩ := mem_ids.mp hid
  obtain ⟨-, hincoming⟩ := Option.or_eq_none_iff.mp hentry
  have hn' : f.hasIncoming n.id = true := by simpa using List.find?_eq_none.mp hincoming n hn
  obtain ⟨c, hc, htarget⟩ := List.any_eq_true.mp hn'
  obtain ⟨holder, hholder, hheld⟩ := List.mem_flatMap.mp hc
  have hsource : c.source = holder.id := hf holder hholder c hheld
  have hmem : holder.id ∈ f.ids := mem_ids.mpr ⟨holder, hholder, rfl⟩
  exact ⟨holder.id, hmem, hmem, hid, c, hc, hsource, by simpa using htarget⟩

/-- A graph without a cycle leaves an entry: the vertex that no edge leads to is one, unless there is
a trigger. -/
theorem exists_entry?_of_isAcyclic (hne : f.nodes ≠ []) (hf : f.DeclaresHolders)
    (h : f.graph.IsAcyclic) : ∃ n, f.entry? = some n := by
  by_contra hnone
  have hentry : f.entry? = none := Option.eq_none_iff_forall_ne_some.mpr (not_exists.mp hnone)
  have hvertices : f.ids.map f.number ≠ [] := by
    obtain ⟨n, hn⟩ := List.exists_mem_of_ne_nil _ hne
    exact List.ne_nil_of_mem (List.mem_map_of_mem (mem_ids.mpr ⟨n, hn, rfl⟩))
  obtain ⟨v, hfree⟩ := Graph.exists_free h hvertices
  obtain ⟨hv, hunheld⟩ := Graph.mem_free.mp hfree
  obtain ⟨id, hid, rfl⟩ := List.mem_map.mp hv
  obtain ⟨source, hsource, hjoins⟩ := exists_joins_of_entry? hf hentry hid
  exact hunheld _ (List.mem_map_of_mem hsource) hjoins.edge

/-- **A funnel has an entry unless it has a cycle**, if connections declare the nodes that hold them.
An examination that finds no entry finds a cycle too; and if there is no cycle, a run that waits to
begin its walk begins it, at a node of the funnel. -/
theorem entry_unless_cycle (hne : f.nodes ≠ []) (hf : f.DeclaresHolders) :
    (f.entry? = none → ¬ f.graph.IsAcyclic) ∧
    (∀ registry limits, noEntry ∈ (f.validate registry limits).errors →
      ∃ id, cycleThrough id ∈ (f.validate registry limits).errors) ∧
    (f.graph.IsAcyclic → ∃ n ∈ f.nodes, f.entry? = some n ∧
      ∀ (engine : Engine) (wake : Wake) (r : Run) (manager : Manager), r.funnel = f →
        r.phase = .opening → r.resume engine wake manager =
          r.follow wake.moment (r.walk.start engine f
            { wake with cancelled := r.isCancelled manager } n (.limited engine.limits.timeout))
            manager) := by
  have hcycle : f.entry? = none → ¬ f.graph.IsAcyclic := by
    intro hentry hacyclic
    obtain ⟨n, hn⟩ := exists_entry?_of_isAcyclic hne hf hacyclic
    rw [hentry] at hn
    cases hn
  refine ⟨hcycle, fun registry limits hmem => ?_, fun hacyclic => ?_⟩
  · exact (cycleThrough_mem_errors_iff hne).mpr (hcycle ((noEntry_mem_errors_iff hne).mp hmem))
  · obtain ⟨n, hn⟩ := exists_entry?_of_isAcyclic hne hf hacyclic
    refine ⟨n, mem_of_entry? hn, hn, ?_⟩
    rintro engine wake r manager rfl hphase
    unfold Run.resume
    rw [hphase, hn]

/-- Two nodes that lead to each other. -/
def ring : Funnel where
  id := "ring"
  name := ""
  description := none
  version := 1
  nodes := [⟨"a", .finish, "", .null, [⟨"c1", "a", "b", none⟩], none⟩,
    ⟨"b", .finish, "", .null, [⟨"c2", "b", "a", none⟩], none⟩]
  tags := []
  metadata := []

/-- A ring has no entry, and is said to have none and to be a cycle; a straight funnel has no cycle,
and so it has an entry. -/
theorem ring_has_cycle_straight_has_entry :
    (ring.nodes ≠ [] ∧ ring.DeclaresHolders ∧ ring.entry? = none ∧ ¬ ring.graph.IsAcyclic) ∧
    (noEntry ∈ (ring.validate (.builtIn []) .standard).errors ∧
      ∃ id, cycleThrough id ∈ (ring.validate (.builtIn []) .standard).errors) ∧
    straight.graph.IsAcyclic ∧ ∃ n ∈ straight.nodes, straight.entry? = some n := by
  have hne : ring.nodes ≠ [] := List.cons_ne_nil _ _
  have hf : ring.DeclaresHolders := by simp [DeclaresHolders, ring]
  have hentry : ring.entry? = none := rfl
  have hmem : noEntry ∈ (ring.validate (.builtIn []) .standard).errors := by decide
  have hacyclic : straight.graph.IsAcyclic := Graph.isSome_order?_iff.mp (by decide)
  obtain ⟨hcycle, herrors, -⟩ := entry_unless_cycle hne hf
  obtain ⟨n, hn, hfound, -⟩ :=
    (entry_unless_cycle (List.cons_ne_nil _ _) straight_declaresHolders).2.2 hacyclic
  exact ⟨⟨hne, hf, hentry, hcycle hentry⟩, ⟨hmem, herrors _ _ hmem⟩, hacyclic, n, hn, hfound⟩

end Funnel

end Outreach
