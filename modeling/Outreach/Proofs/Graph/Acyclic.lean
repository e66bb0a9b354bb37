import Mathlib.Data.List.Chain
import Mathlib.Data.Set.Finite.List
import Mathlib.Order.WellFounded
import Outreach.Funnel.Graph

/-!
# Graphs without cycles

A graph has no cycle exactly if its vertices can be listed so that every edge leads forward, and then
they are listed so (`Graph.isSome_order?_iff`): among finitely many vertices one is always free, for
otherwise an edge would lead to each of them, from one to the next and back in the end
(`Graph.exists_free`).
-/

namespace Outreach

open Relation (TransGen)

/-- Where nothing leads back, a path meets nothing twice. -/
theorem nodup_of_isChain {α : Type} {r : α → α → Prop} (h : ∀ a, ¬ TransGen r a a) {path : List α}
    (hpath : path.IsChain r) : path.Nodup := by
  have hpairs : path.Pairwise (TransGen r) :=
    List.isChain_iff_pairwise.mp (hpath.imp fun _ _ hstep => .single hstep)
  refine List.Pairwise.imp (fun {a b} hlead (heq : a = b) => ?_) hpairs
  subst heq
  exact h a hlead

namespace Graph

variable (g : Graph)

/-- An edge leads from one vertex to another. -/
def Edge (source target : Nat) : Prop :=
  (source, target) ∈ g.edges

/-- No vertex leads back to itself. -/
def IsAcyclic : Prop :=
  ∀ v, ¬ TransGen g.Edge v v

/-- Every edge from a vertex of a list leads to a vertex that comes later in it. -/
def LeadsForward : List Nat → Prop
  | [] => True
  | v :: rest => (∀ w, g.Edge v w → w ∈ rest) ∧ LeadsForward rest

variable {g} {left order : List Nat} {u v w : Nat}

theorem Edge.target_lt (h : g.Edge u v) : v < g.size :=
  (g.bounded _ h).2

theorem mem_vertices : v ∈ g.vertices ↔ v < g.size :=
  List.mem_range

/-! ## Lists in which every edge leads forward -/

theorem LeadsForward.mem (h : g.LeadsForward order) (hv : v ∈ order) (hedge : g.Edge v w) :
    w ∈ order := by
  induction order with
  | nil => exact absurd hv List.not_mem_nil
  | cons first rest ih =>
    refine List.mem_cons_of_mem _ ?_
    rcases List.mem_cons.mp hv with rfl | hv
    · exact h.1 w hedge
    · exact ih h.2 hv

/-- Vertices that lead into a list may stand before it. -/
theorem LeadsForward.append {front : List Nat} (h : g.LeadsForward order)
    (hfront : ∀ v ∈ front, ∀ w, g.Edge v w → w ∈ order) : g.LeadsForward (front ++ order) := by
  induction front with
  | nil => exact h
  | cons first rest ih =>
    obtain ⟨hfirst, hrest⟩ := List.forall_mem_cons.mp hfront
    exact ⟨fun w hedge => List.mem_append_right _ (hfirst w hedge), ih hrest⟩

/-- The position of a vertex, counted from the end, falls along every edge. -/
theorem LeadsForward.exists_rank (h : g.LeadsForward order) :
    ∃ rank : Nat → Nat, (∀ v, rank v ≤ order.length) ∧
      ∀ u ∈ order, ∀ v, g.Edge u v → rank v < rank u := by
  induction order with
  | nil => exact ⟨fun _ => 0, fun _ => Nat.le_refl _, fun u hu => absurd hu List.not_mem_nil⟩
  | cons first rest ih =>
    obtain ⟨rank, hbound, hrank⟩ := ih h.2
    refine ⟨fun v => if v ∈ rest then rank v else rest.length + 1, fun v => ?_, ?_⟩
    · have hv := hbound v
      rw [List.length_cons]
      dsimp only
      split <;> omega
    · intro u hu v hedge
      have hv := hbound v
      by_cases hmem : u ∈ rest
      · have hlater : v ∈ rest := h.2.mem hmem hedge
        simp only [hmem, hlater, if_true]
        exact hrank u hmem v hedge
      · obtain rfl : u = first := (List.mem_cons.mp hu).resolve_right hmem
        have hlater : v ∈ rest := h.1 v hedge
        simp only [hmem, hlater, if_true, if_false]
        omega

/-! ## Free vertices -/

theorem isHeld_iff : g.isHeld left v = true ↔ ∃ u ∈ left, g.Edge u v := by
  simp only [isHeld, List.any_eq_true, Bool.and_eq_true, beq_iff_eq, List.contains_iff_mem]
  constructor
  · rintro ⟨⟨a, b⟩, hedge, rfl, ha⟩
    exact ⟨a, ha, hedge⟩
  · rintro ⟨u, hu, hedge⟩
    exact ⟨(u, v), hedge, rfl, hu⟩

theorem mem_held : v ∈ g.held left ↔ v ∈ left ∧ ∃ u ∈ left, g.Edge u v := by
  rw [held, List.mem_filter, isHeld_iff]

theorem mem_free : v ∈ g.free left ↔ v ∈ left ∧ ∀ u ∈ left, ¬ g.Edge u v := by
  rw [free, List.mem_filter, Bool.not_eq_true', ← Bool.not_eq_true, isHeld_iff]
  simp only [not_exists, not_and]

theorem mem_left_iff : v ∈ left ↔ v ∈ g.free left ∨ v ∈ g.held left := by
  cases hheld : g.isHeld left v <;> simp [free, held, List.mem_filter, hheld]

theorem length_held_lt (h : v ∈ g.free left) : (g.held left).length < left.length := by
  obtain ⟨hv, hheld⟩ := List.mem_filter.mp h
  exact List.length_filter_lt_length_iff_exists.mpr ⟨v, hv, by simpa using hheld⟩

/-- **Without a cycle one vertex of every list is free.** -/
theorem exists_free (h : g.IsAcyclic) (hleft : left ≠ []) : ∃ v, v ∈ g.free left := by
  let Leads (u v : {v // v ∈ left}) : Prop := TransGen g.Edge u v
  have hfinite : Finite {v // v ∈ left} := (List.finite_toSet left).to_subtype
  have htrans : IsTrans _ Leads := ⟨fun _ _ _ => TransGen.trans⟩
  have hirrefl : Std.Irrefl Leads := ⟨fun v => h v⟩
  have hwf : WellFounded Leads := Finite.wellFounded_of_trans_of_irrefl Leads
  obtain ⟨first, hfirst⟩ := List.exists_mem_of_ne_nil left hleft
  obtain ⟨⟨v, hv⟩, -, hmin⟩ := hwf.has_min Set.univ ⟨⟨first, hfirst⟩, trivial⟩
  exact ⟨v, mem_free.mpr ⟨hv, fun u hu hedge => hmin ⟨u, hu⟩ trivial (.single hedge)⟩⟩

/-! ## Sorting -/

/-- Where nothing is left, nothing is sorted out. -/
theorem sorted_nil (h : (if left.isEmpty then some [] else none) = some order) :
    (∀ v, v ∈ order ↔ v ∈ left) ∧ g.LeadsForward order := by
  split at h
  next hempty =>
    cases h
    exact ⟨fun v => by rw [List.isEmpty_iff.mp hempty], trivial⟩
  next => cases h

/-- What is sorted out is what was left, and every edge leads forward in it. -/
theorem leadsForward_of_sort {rounds : Nat}
    (hclosed : ∀ u ∈ left, ∀ v, g.Edge u v → v ∈ left) (h : g.sort rounds left = some order) :
    (∀ v, v ∈ order ↔ v ∈ left) ∧ g.LeadsForward order := by
  induction rounds generalizing left order with
  | zero => exact sorted_nil h
  | succ rounds ih =>
    unfold sort at h
    split at h
    next => exact sorted_nil h
    next =>
      obtain ⟨back, hback, rfl⟩ := Option.map_eq_some_iff.mp h
      have hinto : ∀ u ∈ left, ∀ v, g.Edge u v → v ∈ g.held left :=
        fun u hu v hedge => mem_held.mpr ⟨hclosed u hu v hedge, u, hu, hedge⟩
      obtain ⟨hmem, hforward⟩ := ih (fun u hu => hinto u (mem_held.mp hu).1) hback
      refine ⟨fun v => ?_, hforward.append fun v hv w hedge => ?_⟩
      · rw [List.mem_append, hmem, ← mem_left_iff]
      · exact (hmem w).mpr (hinto v (mem_free.mp hv).1 w hedge)

/-- Without a cycle a vertex is sorted out in every round, so as many rounds as there are vertices
are enough. -/
theorem isSome_sort (h : g.IsAcyclic) {rounds : Nat} (hrounds : left.length ≤ rounds) :
    (g.sort rounds left).isSome = true := by
  induction rounds generalizing left with
  | zero =>
    obtain rfl : left = [] := List.eq_nil_of_length_eq_zero (Nat.le_zero.mp hrounds)
    rfl
  | succ rounds ih =>
    by_cases hleft : left = []
    · subst hleft
      rfl
    · obtain ⟨v, hfree⟩ := exists_free h hleft
      have hshorter := length_held_lt hfree
      rw [sort, if_neg fun hempty => List.ne_nil_of_mem hfree (List.isEmpty_iff.mp hempty),
        Option.isSome_map]
      exact ih (by omega)

/-- The order of a graph lists its vertices so that every edge leads forward. -/
theorem leadsForward_of_order? (h : g.order? = some order) :
    (∀ v, v ∈ order ↔ v < g.size) ∧ g.LeadsForward order := by
  have hclosed : ∀ u ∈ g.vertices, ∀ v, g.Edge u v → v ∈ g.vertices :=
    fun _ _ _ hedge => mem_vertices.mpr hedge.target_lt
  obtain ⟨hmem, hforward⟩ := leadsForward_of_sort hclosed h
  exact ⟨fun v => (hmem v).trans mem_vertices, hforward⟩

/-- An order in which every edge leads forward ranks the vertices. -/
theorem exists_rank_of_order? (h : g.order? = some order) :
    ∃ rank : Nat → Nat, ∀ {u v}, g.Edge u v → rank v < rank u := by
  obtain ⟨hmem, hforward⟩ := leadsForward_of_order? h
  obtain ⟨rank, -, hrank⟩ := hforward.exists_rank
  exact ⟨rank, fun {u v} hedge => hrank u ((hmem u).mpr (g.bounded _ hedge).1) v hedge⟩

/-- **A graph has an order exactly if it has no cycle.** -/
theorem isSome_order?_iff : g.order?.isSome = true ↔ g.IsAcyclic := by
  constructor
  · intro h v hcycle
    obtain ⟨order, horder⟩ := Option.isSome_iff_exists.mp h
    obtain ⟨rank, hrank⟩ := exists_rank_of_order? horder
    have hfalls {u w : Nat} (hlead : TransGen g.Edge u w) : rank w < rank u := by
      induction hlead with
      | single hedge => exact hrank hedge
      | tail _ hedge ih => exact (hrank hedge).trans ih
    exact Nat.lt_irrefl _ (hfalls hcycle)
  · intro h
    exact isSome_sort h (by rw [vertices, List.length_range])

end Graph

end Outreach
