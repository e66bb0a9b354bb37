import Mathlib.Logic.Relation
import Outreach.Executor.BuiltIn
import Outreach.Proofs.Funnel.Acceptance

/-!
# The routes through a funnel

A run follows the connections that a node holds. An examination follows the sources that connections
declare, and only warns where a source is not the node that holds the connection. So what it finds
out about cycles and depth holds of the routes whose every step is declared
(`Funnel.IsRoute.nodup_of_declared`, `Funnel.IsRoute.length_le_of_declared`), and of the others it
says nothing (`Funnel.routes_end_iff`).
-/

namespace Outreach

namespace Funnel

/-! ## Routes -/

variable (f : Funnel)

/-- A run may go on from one node to another along a connection that the first one holds. -/
def Leads (n m : Node) : Prop :=
  ∃ c ∈ n.connections, f.node? c.target = some m

/-- A connection declares that it leads from one node to another, whichever node holds it. -/
def Declares (n m : Node) : Prop :=
  ∃ c ∈ f.connections, c.source = n.id ∧ c.target = m.id

/-- Every connection declares the node that holds it as its source. -/
def DeclaresHolders : Prop :=
  ∀ n ∈ f.nodes, ∀ c ∈ n.connections, c.source = n.id

/-- A walk along connections that begins at the entry. -/
structure IsRoute (route : List Node) : Prop where
  entry : route.head? = f.entry?
  leads : route.IsChain f.Leads

/-- A run may come to a node from which it may come back to it. -/
def HasReachableCycle : Prop :=
  ∃ entry n, f.entry? = some entry ∧ Relation.ReflTransGen f.Leads entry n ∧
    Relation.TransGen f.Leads n n

variable {f : Funnel} {registry : Registry} {limits : Limits} {n m : Node} {route : List Node}

theorem Leads.mem (h : f.Leads n m) : m ∈ f.nodes := by
  obtain ⟨c, -, hm⟩ := h
  exact mem_of_node? hm

theorem Leads.declares (h : f.Leads n m) (hn : n ∈ f.nodes) (hf : f.DeclaresHolders) :
    f.Declares n m := by
  obtain ⟨c, hc, hm⟩ := h
  exact ⟨c, List.mem_flatMap.mpr ⟨n, hn, hc⟩, hf n hn c hc, (id_of_node? hm).symm⟩

theorem IsRoute.subset (h : f.IsRoute route) : route ⊆ f.nodes := by
  intro n hn
  refine h.leads.induction (· ∈ f.nodes) route (fun _ _ hl _ => hl.mem) (fun hne => ?_) n hn
  have hhead : f.entry? = some (route.head hne) := by rw [← h.entry, List.head?_eq_some_head hne]
  exact mem_of_entry? hhead

theorem IsRoute.isChain_declares (h : f.IsRoute route) (hf : f.DeclaresHolders) :
    route.IsChain f.Declares :=
  h.leads.imp_of_mem_imp fun _ _ hn _ hl => hl.declares (h.subset hn) hf

/-- Nodes that follow each other on a route lead to each other, over others or at once. -/
theorem IsRoute.pairwise (h : f.IsRoute route) : route.Pairwise (Relation.TransGen f.Leads) :=
  List.isChain_iff_pairwise.mp (h.leads.imp fun _ _ hl => .single hl)

theorem IsRoute.reachable (h : f.IsRoute route) {entry : Node} (hentry : f.entry? = some entry)
    (hn : n ∈ route) : Relation.ReflTransGen f.Leads entry n := by
  cases route with
  | nil => exact absurd hn List.not_mem_nil
  | cons first rest =>
    obtain rfl : first = entry := Option.some.inj (h.entry.trans hentry)
    rcases List.mem_cons.mp hn with rfl | hn
    · exact .refl
    · exact (List.rel_of_pairwise_cons h.pairwise hn).to_reflTransGen

/-- Without a cycle no route meets a node twice. -/
theorem IsRoute.nodup (h : f.IsRoute route) (hf : ¬ f.HasReachableCycle) : route.Nodup := by
  refine h.pairwise.imp_of_mem fun {n m} hn hm hlead heq => hf ?_
  subst heq
  cases hentry : f.entry? with
  | none =>
    have hnil : route = [] := List.head?_eq_none_iff.mp (h.entry.trans hentry)
    exact absurd (hnil ▸ hn) List.not_mem_nil
  | some entry => exact ⟨entry, n, hentry, h.reachable hentry hn, hlead⟩

/-- A cycle makes a route that meets a node twice. -/
theorem HasReachableCycle.exists_route (h : f.HasReachableCycle) :
    ∃ route, f.IsRoute route ∧ ¬ route.Nodup := by
  obtain ⟨entry, n, hentry, hreach, hcycle⟩ := h
  obtain ⟨first, hfirst, hlast⟩ := List.exists_isChain_cons_of_relationReflTransGen hreach
  obtain ⟨next, hnext, hback⟩ := Relation.TransGen.head'_iff.mp hcycle
  obtain ⟨second, hsecond, hend⟩ := List.exists_isChain_cons_of_relationReflTransGen hback
  refine ⟨(entry :: first) ++ (next :: second), ⟨hentry.symm, ?_⟩, fun hnodup => ?_⟩
  · refine hfirst.append hsecond ?_
    rintro x hx y hy
    rw [List.getLast?_eq_some_getLast (List.cons_ne_nil _ _), hlast] at hx
    cases hx
    cases hy
    exact hnext
  · have hleft : n ∈ entry :: first := hlast ▸ List.getLast_mem _
    have hright : n ∈ next :: second := hend ▸ List.getLast_mem _
    exact List.disjoint_of_nodup_append hnodup hleft hright

/-! ## What an examination says about them -/

theorem Declares.joins (h : f.Declares n m) (hn : n ∈ f.nodes) (hm : m ∈ f.nodes) :
    f.Joins n.id m.id :=
  ⟨mem_ids.mpr ⟨n, hn, rfl⟩, mem_ids.mpr ⟨m, hm, rfl⟩, h⟩

/-- A rank that falls along every connection, if all of them are declared. -/
theorem Accepted.exists_rank (h : f.Accepted registry limits) (hf : f.DeclaresHolders) :
    ∃ rank : Node → Nat, ∀ {n m}, n ∈ f.nodes → f.Leads n m → rank m < rank n := by
  obtain ⟨order, horder⟩ := Option.isSome_iff_exists.mp
    (Graph.isSome_order?_iff.mpr (isAcyclic_graph_iff.mpr h.acyclic))
  obtain ⟨rank, hrank⟩ := Graph.exists_rank_of_order? horder
  refine ⟨fun n => rank (f.number n.id), fun hn hl => ?_⟩
  exact hrank ((hl.declares hn hf).joins hn hl.mem).edge

theorem IsRoute.isChain_joins (h : f.IsRoute route) (hd : route.IsChain f.Declares) :
    (route.map Node.id).IsChain f.Joins :=
  (List.isChain_map _).mpr
    (hd.imp_of_mem_imp fun _ _ hn hm he => he.joins (h.subset hn) (h.subset hm))

/-- A route through an accepted funnel whose steps are declared meets no node twice. -/
theorem IsRoute.nodup_of_declared (h : f.IsRoute route) (hf : f.Accepted registry limits)
    (hd : route.IsChain f.Declares) : route.Nodup :=
  (nodup_of_isChain hf.acyclic (h.isChain_joins hd)).of_map _

/-- A route through an accepted funnel whose steps are declared is no longer than the limit. -/
theorem IsRoute.length_le_of_declared (h : f.IsRoute route) (hf : f.Accepted registry limits)
    (hd : route.IsChain f.Declares) : route.length ≤ limits.depth := by
  obtain ⟨entry, hentry⟩ := hf.entry
  have hhead : (route.map Node.id).head? = some entry.id := by
    rw [List.head?_map, h.entry, hentry, Option.map_some]
  have hle := hf.depth entry hentry _ (h.isChain_joins hd) hhead
  rwa [List.length_map] at hle

/-- **Where an accepted funnel has no cycle and is not too deep.** No run through it can come to a
node again, and none has to pass more nodes than the limit says, exactly if neither is the case on
the routes with a step that no connection declares. -/
theorem routes_end_iff (h : (f.validate registry limits).isValid = true) :
    (¬ f.HasReachableCycle ∧ ∀ route, f.IsRoute route → route.length ≤ limits.depth) ↔
      ∀ route, f.IsRoute route → ¬ route.IsChain f.Declares →
        route.Nodup ∧ route.length ≤ limits.depth := by
  have hf := isValid_validate_iff.mp h
  constructor
  · rintro ⟨hcycle, hdepth⟩ route hroute -
    exact ⟨hroute.nodup hcycle, hdepth route hroute⟩
  · intro hrest
    have hall : ∀ route, f.IsRoute route → route.Nodup ∧ route.length ≤ limits.depth := by
      intro route hroute
      by_cases hd : route.IsChain f.Declares
      · exact ⟨hroute.nodup_of_declared hf hd, hroute.length_le_of_declared hf hd⟩
      · exact hrest route hroute hd
    refine ⟨fun hcycle => ?_, fun route hroute => (hall route hroute).2⟩
    obtain ⟨route, hroute, htwice⟩ := hcycle.exists_route
    exact htwice (hall route hroute).1

/-- A trigger, and behind it the end of the run. -/
def straight : Funnel where
  id := "straight"
  name := ""
  description := none
  version := 1
  nodes := [⟨"a", .trigger, "", .null, [⟨"ab", "a", "b", none⟩], none⟩,
    ⟨"b", .finish, "", .null, [], none⟩]
  tags := []
  metadata := []

theorem straight_declaresHolders : straight.DeclaresHolders := by
  simp [DeclaresHolders, straight]

theorem straight_routes_end :
    (straight.validate (.builtIn []) .standard).isValid = true ∧ ¬ straight.HasReachableCycle ∧
      ∀ route, straight.IsRoute route → route.length ≤ Limits.standard.depth := by
  have h : (straight.validate (.builtIn []) .standard).isValid = true := by decide
  exact ⟨h, (routes_end_iff h).mpr fun route hroute hd =>
    absurd (hroute.isChain_declares straight_declaresHolders) hd⟩

/-- A trigger that goes on with itself, along a connection that declares another source. -/
def misdeclared : Funnel where
  id := "mismatch"
  name := ""
  description := none
  version := 1
  nodes := [⟨"a", .trigger, "", .null, [⟨"c1", "elsewhere", "a", none⟩], none⟩]
  tags := []
  metadata := []

theorem misdeclared_hasReachableCycle : misdeclared.HasReachableCycle := by
  let a : Node := ⟨"a", .trigger, "", .null, [⟨"c1", "elsewhere", "a", none⟩], none⟩
  have hloop : misdeclared.Leads a a := ⟨_, List.mem_singleton.mpr rfl, rfl⟩
  exact ⟨a, a, rfl, .refl, .single hloop⟩

/-- **An accepted funnel may have a cycle.** -/
theorem misdeclared_accepted_with_cycle :
    (misdeclared.validate (.builtIn []) .standard).isValid = true ∧
      misdeclared.HasReachableCycle :=
  ⟨by decide, misdeclared_hasReachableCycle⟩

end Funnel

end Outreach
