import Outreach.Engine.Onward
import Outreach.Funnel.Graph

/-!
# Nodes by their identifiers

Every node that is found in a funnel, be it the entry or one that comes next, is a node of the
funnel.
-/

namespace Outreach.Funnel

variable {f : Funnel} {n m : Node} {id : String}

theorem mem_of_node? (h : f.node? id = some n) : n ∈ f.nodes :=
  List.mem_of_find?_eq_some h

theorem id_of_node? (h : f.node? id = some n) : n.id = id := by
  simpa using List.find?_some h

theorem mem_of_entry? (h : f.entry? = some n) : n ∈ f.nodes := by
  rcases Option.or_eq_some_iff.mp h with h | ⟨-, h⟩
  · exact List.mem_of_find?_eq_some h
  · exact List.mem_of_find?_eq_some h

theorem mem_ids : id ∈ f.ids ↔ ∃ n ∈ f.nodes, n.id = id := by
  rw [ids, List.mem_eraseDups, List.mem_map]

theorem isSome_node?_iff : (f.node? id).isSome = true ↔ id ∈ f.ids := by
  rw [node?, List.find?_isSome, mem_ids]
  simp only [beq_iff_eq]

/-! ## The nodes that come next -/

variable (moment : Moment) (source : String) (e : Execution)

theorem node?_of_mem_target (h : m ∈ (f.target moment source e id).1) : f.node? id = some m := by
  unfold target at h
  split at h
  next n hn => rw [hn, List.mem_singleton.mp h]
  next => exact absurd h List.not_mem_nil

theorem node?_of_mem_targets {connections : List Connection}
    (h : m ∈ (f.targets moment source connections e).1) :
    ∃ c ∈ connections, f.node? c.target = some m := by
  induction connections generalizing e with
  | nil => exact absurd h List.not_mem_nil
  | cons c rest ih =>
    unfold targets at h
    split at h
    next e' _ =>
      rcases List.mem_append.mp h with h | h
      · exact ⟨c, List.mem_cons_self, node?_of_mem_target moment source e' h⟩
      · obtain ⟨d, hd, hm⟩ := ih _ h
        exact ⟨d, List.mem_cons_of_mem _ hd, hm⟩
    next =>
      obtain ⟨d, hd, hm⟩ := ih _ h
      exact ⟨d, List.mem_cons_of_mem _ hd, hm⟩

/-- A node that comes next is the one that was named, or one that a connection leads to. -/
theorem node?_of_mem_onward {named : Option String} (h : m ∈ (f.onward moment n named e).1) :
    (∃ id, named = some id ∧ f.node? id = some m) ∨
      named = none ∧ ∃ c ∈ n.connections, f.node? c.target = some m := by
  cases named with
  | none => exact .inr ⟨rfl, node?_of_mem_targets moment n.id e h⟩
  | some id => exact .inl ⟨id, rfl, node?_of_mem_target moment n.id e h⟩

theorem mem_of_mem_onward {named : Option String} (h : m ∈ (f.onward moment n named e).1) :
    m ∈ f.nodes := by
  rcases node?_of_mem_onward moment e h with ⟨id, -, hm⟩ | ⟨-, c, -, hm⟩
  · exact mem_of_node? hm
  · exact mem_of_node? hm

end Outreach.Funnel
