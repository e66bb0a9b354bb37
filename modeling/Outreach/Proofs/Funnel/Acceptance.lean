import Mathlib.Data.List.Nodup
import Outreach.Funnel.Validation
import Outreach.Proofs.Funnel.Joins

/-!
# What an accepted funnel is

An examination goes through a funnel and collects what it finds; errors once found stay. So its
verdict is valid exactly if no single check found an error (`Funnel.isValid_validate_iff`), and what
the checks ask for can be said without them (`Funnel.Accepted`).
-/

namespace Outreach

/-! ## Verdicts -/

namespace Verdict

@[simp] theorem isValid_valid : valid.isValid = true := rfl

@[simp] theorem isValid_error (v : Verdict) (message : String) :
    (v.error message).isValid = false := rfl

@[simp] theorem isValid_warning (v : Verdict) (message : String) :
    (v.warning message).isValid = v.isValid := rfl

@[simp] theorem isValid_errorIf (v : Verdict) (found : Bool) (message : String) :
    (v.errorIf found message).isValid = (v.isValid && !found) := by
  cases found <;> simp [errorIf]

@[simp] theorem isValid_warningIf (v : Verdict) (found : Bool) (message : String) :
    (v.warningIf found message).isValid = v.isValid := by
  cases found <;> rfl

@[simp] theorem isValid_absorb (v : Verdict) (scope : String) (part : Verdict) :
    (v.absorb scope part).isValid = (v.isValid && part.isValid && part.errors.isEmpty) := rfl

/-- A check that is made of one thing after the other finds no error exactly if it finds none in
any of them. -/
theorem isValid_foldl_iff {α : Type} {check : Verdict → α → Verdict} {passes : α → Prop}
    (hcheck : ∀ v a, (check v a).isValid = true ↔ v.isValid = true ∧ passes a) (items : List α)
    (v : Verdict) :
    (items.foldl check v).isValid = true ↔ v.isValid = true ∧ ∀ a ∈ items, passes a := by
  induction items generalizing v with
  | nil => simp
  | cons a rest ih =>
    rw [List.foldl_cons, ih, hcheck, List.forall_mem_cons, and_assoc]

end Verdict

/-- A condition that can be evaluated, whatever the variables. -/
structure Condition.IsMeaningful (c : Condition) : Prop where
  field : Text.isBlankText c.field = false
  operator : c.operator.isKnown = true

namespace Funnel

/-! ## What is asked for -/

/-- A connection that an examination lets pass. -/
structure AcceptsConnection (f : Funnel) (c : Connection) : Prop where
  target : c.target ∈ f.ids
  condition : ∀ condition, c.condition = some condition → condition.IsMeaningful

/-- A node that an examination lets pass. -/
structure AcceptsNode (f : Funnel) (registry : Registry) (n : Node) : Prop where
  executor : ∃ x, registry.executor? n.type = some x ∧ (x.examine n.settings).isValid = true ∧
    (x.examine n.settings).errors = []
  connections : ∀ c ∈ n.connections, f.AcceptsConnection c

/-- A funnel that an examination lets pass. -/
structure Accepted (f : Funnel) (registry : Registry) (limits : Limits) : Prop where
  nonempty : f.nodes ≠ []
  size : f.nodes.length ≤ limits.nodes
  nodup : (f.nodes.map Node.id).Nodup
  entry : ∃ n, f.entry? = some n
  nodes : ∀ n ∈ f.nodes, f.AcceptsNode registry n
  acyclic : ∀ id, ¬ Relation.TransGen f.Joins id id
  depth : ∀ n, f.entry? = some n → ∀ path : List String, path.IsChain f.Joins →
    path.head? = some n.id → path.length ≤ limits.depth

variable {f : Funnel} {registry : Registry} {limits : Limits}

/-! ## The checks -/

theorem isValid_checkIds_iff (seen : List String) (nodes : List Node) (v : Verdict) :
    (checkIds seen nodes v).isValid = true ↔
      v.isValid = true ∧ (nodes.map Node.id).Nodup ∧ ∀ n ∈ nodes, n.id ∉ seen := by
  induction nodes generalizing seen v with
  | nil => simp [checkIds]
  | cons n rest ih =>
    have hn : (!(seen.contains n.id)) = true ↔ n.id ∉ seen := by simp
    rw [checkIds, ih, Verdict.isValid_errorIf, Bool.and_eq_true, hn, List.map_cons,
      List.nodup_cons, List.forall_mem_cons]
    constructor
    · rintro ⟨⟨hv, hn⟩, hnodup, hrest⟩
      have hfresh : n.id ∉ rest.map Node.id := by
        rintro hmem
        obtain ⟨m, hm, heq⟩ := List.mem_map.mp hmem
        exact hrest m hm (heq ▸ List.mem_cons_self)
      exact ⟨hv, ⟨hfresh, hnodup⟩, hn, fun m hm h => hrest m hm (List.mem_cons_of_mem _ h)⟩
    · rintro ⟨hv, ⟨hfresh, hnodup⟩, hn, hrest⟩
      refine ⟨⟨hv, hn⟩, hnodup, fun m hm h => ?_⟩
      rcases List.mem_cons.mp h with heq | h
      · exact hfresh (heq ▸ List.mem_map_of_mem hm)
      · exact hrest m hm h

theorem isValid_checkCondition_iff (about : String) (v : Verdict) (condition : Condition) :
    (checkCondition about v condition).isValid = true ↔
      v.isValid = true ∧ condition.IsMeaningful := by
  simp only [checkCondition, Verdict.isValid_errorIf, Bool.and_eq_true, Bool.not_eq_true',
    Bool.not_eq_false']
  constructor
  · rintro ⟨⟨hv, hoperator⟩, hfield⟩
    exact ⟨hv, hfield, hoperator⟩
  · rintro ⟨hv, hfield, hoperator⟩
    exact ⟨⟨hv, hoperator⟩, hfield⟩

theorem isValid_checkConnection_iff (n : Node) (v : Verdict) (c : Connection) :
    (f.checkConnection n v c).isValid = true ↔ v.isValid = true ∧ f.AcceptsConnection c := by
  have htarget : (!(!f.ids.contains c.target)) = true ↔ c.target ∈ f.ids := by simp
  cases hc : c.condition with
  | none =>
    simp only [checkConnection, hc, Verdict.isValid_errorIf, Verdict.isValid_warningIf,
      Bool.and_eq_true, htarget]
    exact and_congr_right fun _ => ⟨fun h => ⟨h, by simp [hc]⟩, fun h => h.target⟩
  | some condition =>
    simp only [checkConnection, hc, isValid_checkCondition_iff, Verdict.isValid_errorIf,
      Verdict.isValid_warningIf, Bool.and_eq_true, htarget, and_assoc]
    refine and_congr_right fun _ => ⟨fun h => ⟨h.1, ?_⟩, fun h => ⟨h.target, h.condition _ hc⟩⟩
    rintro _ hsome
    obtain rfl : condition = _ := Option.some.inj (hc.symm.trans hsome)
    exact h.2

theorem isValid_checkNode_iff (v : Verdict) (n : Node) :
    (f.checkNode registry v n).isValid = true ↔ v.isValid = true ∧ f.AcceptsNode registry n := by
  unfold checkNode
  rw [Verdict.isValid_foldl_iff fun v c => isValid_checkConnection_iff n v c]
  cases hx : registry.executor? n.type with
  | none =>
    simp only [Verdict.isValid_error, Bool.false_eq_true, false_and, false_iff, not_and]
    rintro - ⟨⟨x, hsome, -⟩, -⟩
    rw [hx] at hsome
    cases hsome
  | some x =>
    simp only [Verdict.isValid_absorb, Bool.and_eq_true, List.isEmpty_iff]
    constructor
    · rintro ⟨⟨⟨hv, hvalid⟩, herrors⟩, hconnections⟩
      exact ⟨hv, ⟨x, hx, hvalid, herrors⟩, hconnections⟩
    · rintro ⟨hv, ⟨y, hy, hvalid, herrors⟩, hconnections⟩
      obtain rfl : x = y := Option.some.inj (hx.symm.trans hy)
      exact ⟨⟨⟨hv, hvalid⟩, herrors⟩, hconnections⟩

theorem isValid_checkGraph_iff (v : Verdict) :
    (f.checkGraph limits v).isValid = true ↔
      v.isValid = true ∧ (∀ id, ¬ Relation.TransGen f.Joins id id) ∧
        ∀ n, f.entry? = some n → ∀ path : List String, path.IsChain f.Joins →
          path.head? = some n.id → path.length ≤ limits.depth := by
  rw [← isAcyclic_graph_iff, ← Graph.isSome_order?_iff]
  unfold checkGraph
  cases horder : f.graph.order? with
  | none => simp [horder]
  | some order =>
    simp only [horder, Option.isSome_some, true_and]
    cases hentry : f.entry? with
    | none => simp
    | some n =>
      have hid : n.id ∈ f.ids := mem_ids.mpr ⟨n, mem_of_entry? hentry, rfl⟩
      simp only [Option.bind_some, idxOf?_ids hid, Verdict.isValid_errorIf, Bool.and_eq_true,
        Bool.not_eq_true', decide_eq_false_iff_not, Nat.not_lt, depth_graph_le_iff horder hid]
      refine and_congr_right fun _ => ⟨fun h m hm => ?_, fun h => h n rfl⟩
      cases hm
      exact h

/-- **A verdict is valid exactly if the funnel is what is asked for.** -/
theorem isValid_validate_iff :
    (f.validate registry limits).isValid = true ↔ f.Accepted registry limits := by
  unfold validate
  cases hnodes : f.nodes.isEmpty with
  | true =>
    simp only [if_true, Verdict.isValid_error, Bool.false_eq_true, false_iff]
    exact fun h => h.nonempty (List.isEmpty_iff.mp hnodes)
  | false =>
    have hne : f.nodes ≠ [] := fun h => by simp [h] at hnodes
    have hnode : ∀ v n, (f.checkNode registry v n).isValid = true ↔
        v.isValid = true ∧ f.AcceptsNode registry n := isValid_checkNode_iff
    simp only [Bool.false_eq_true, if_false, isValid_checkGraph_iff,
      Verdict.isValid_foldl_iff hnode, Verdict.isValid_errorIf, isValid_checkIds_iff,
      Verdict.isValid_valid, Bool.and_eq_true, Bool.not_eq_true', decide_eq_false_iff_not,
      Nat.not_lt, Option.isNone_eq_false_iff, Option.isSome_iff_exists, List.not_mem_nil,
      not_false_eq_true, implies_true, and_true, true_and]
    constructor
    · rintro ⟨⟨⟨⟨hsize, hnodup⟩, hentry⟩, hnode⟩, hacyclic, hdepth⟩
      exact ⟨hne, hsize, hnodup, hentry, hnode, hacyclic, hdepth⟩
    · rintro ⟨-, hsize, hnodup, hentry, hnode, hacyclic, hdepth⟩
      exact ⟨⟨⟨⟨hsize, hnodup⟩, hentry⟩, hnode⟩, hacyclic, hdepth⟩

end Funnel

end Outreach
