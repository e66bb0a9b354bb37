import Mathlib.Logic.Relation
import Outreach.Proofs.Funnel.Lookup
import Outreach.Proofs.Graph.Depth

/-!
# What connections declare

A connection joins the identifiers that it declares as its source and its target, if both are known,
whichever node holds it. The graph of a funnel is this relation on numbers, so its cycles and its
paths are those of the relation (`Funnel.isAcyclic_graph_iff`, `Funnel.depth_graph_le_iff`).
-/

namespace Outreach.Funnel

open Relation (TransGen)

variable (f : Funnel)

/-- A connection declares that it leads from one known identifier to another. -/
structure Joins (source target : String) : Prop where
  source_mem : source ∈ f.ids
  target_mem : target ∈ f.ids
  declared : ∃ c ∈ f.connections, c.source = source ∧ c.target = target

/-- The number of an identifier in the graph. -/
def number (id : String) : Nat :=
  (f.ids.idxOf? id).getD 0

/-- The identifier that has a number in the graph. -/
def numbered (v : Nat) : String :=
  f.ids.getD v ""

variable {f} {id source target : String} {u v : Nat}

theorem idxOf?_ids (hid : id ∈ f.ids) : f.ids.idxOf? id = some (f.number id) := by
  obtain ⟨i, hi⟩ := Option.isSome_iff_exists.mp (List.isSome_idxOf?.mpr hid)
  rw [number, hi, Option.getD_some]

theorem numbered_of_idxOf? (h : f.ids.idxOf? id = some v) : f.numbered v = id := by
  obtain ⟨hlt, hid, -⟩ := List.idxOf?_eq_some_iff.mp h
  rw [numbered, List.getD_eq_getElem?_getD, List.getElem?_eq_getElem hlt, Option.getD_some]
  exact hid

theorem numbered_number (hid : id ∈ f.ids) : f.numbered (f.number id) = id :=
  numbered_of_idxOf? (idxOf?_ids hid)

theorem number_lt (hid : id ∈ f.ids) : f.number id < f.graph.size := by
  obtain ⟨hlt, -⟩ := List.idxOf?_eq_some_iff.mp (idxOf?_ids hid)
  exact hlt

/-! ## Edges -/

theorem Joins.edge (h : f.Joins source target) :
    f.graph.Edge (f.number source) (f.number target) := by
  obtain ⟨c, hc, hsource, htarget⟩ := h.declared
  refine List.mem_filterMap.mpr ⟨c, hc, ?_⟩
  rw [edge?, hsource, htarget, idxOf?_ids h.source_mem, idxOf?_ids h.target_mem]

theorem joins_of_edge (h : f.graph.Edge u v) : f.Joins (f.numbered u) (f.numbered v) := by
  obtain ⟨c, hc, hedge⟩ := List.mem_filterMap.mp h
  unfold edge? at hedge
  split at hedge
  next hsource htarget =>
    cases hedge
    rw [numbered_of_idxOf? hsource, numbered_of_idxOf? htarget]
    exact ⟨List.isSome_idxOf?.mp (by rw [hsource]; rfl),
      List.isSome_idxOf?.mp (by rw [htarget]; rfl), c, hc, rfl, rfl⟩
  next => cases hedge

/-! ## Cycles and paths -/

theorem isAcyclic_graph_iff : f.graph.IsAcyclic ↔ ∀ id, ¬ TransGen f.Joins id id := by
  constructor
  · intro h id hcycle
    exact h _ (hcycle.lift f.number fun _ _ hjoins => hjoins.edge)
  · intro h v hcycle
    exact h _ (hcycle.lift f.numbered fun _ _ hedge => joins_of_edge hedge)

/-- The depth of the graph below an identifier is the length of the longest path from there that
connections declare. -/
theorem depth_graph_le_iff {order : List Nat} (horder : f.graph.order? = some order)
    (hid : id ∈ f.ids) {bound : Nat} :
    f.graph.depth order (f.number id) ≤ bound ↔
      ∀ path : List String, path.IsChain f.Joins → path.head? = some id → path.length ≤ bound := by
  obtain ⟨hmem, hforward⟩ := Graph.leadsForward_of_order? horder
  rw [Graph.depth_le_iff hforward ((hmem _).mpr (number_lt hid))]
  constructor
  · intro h path hpath hhead
    have hedges : (path.map f.number).IsChain f.graph.Edge :=
      (List.isChain_map _).mpr (hpath.imp fun _ _ hjoins => hjoins.edge)
    have hle := h _ hedges (by rw [List.head?_map, hhead, Option.map_some])
    rwa [List.length_map] at hle
  · intro h path hpath hhead
    have hjoins : (path.map f.numbered).IsChain f.Joins :=
      (List.isChain_map _).mpr (hpath.imp fun _ _ hedge => joins_of_edge hedge)
    have hle := h _ hjoins
      (by rw [List.head?_map, hhead, Option.map_some, numbered_number hid])
    rwa [List.length_map] at hle

end Outreach.Funnel
