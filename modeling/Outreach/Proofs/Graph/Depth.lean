import Outreach.Proofs.Graph.Acyclic

/-!
# The depth of a graph

Along an order in which every edge leads forward, all paths to a vertex are known before the vertex
is looked at. So what is found in the end is the length of the longest path (`Graph.depth_le_iff`),
be there several edges between two vertices, several ways to one, or vertices that no path reaches.
-/

namespace Outreach.Graph

variable {g : Graph} {depths : Depths} {order path : List Nat} {u v w start : Nat}
  {length bound : Nat}

theorem mem_successors : v ∈ g.successors u ↔ g.Edge u v := by
  simp only [successors, List.mem_reverse, List.mem_map, List.mem_filter, beq_iff_eq]
  constructor
  · rintro ⟨⟨a, b⟩, ⟨he, rfl⟩, rfl⟩
    exact he
  · intro he
    exact ⟨(u, v), ⟨he, rfl⟩, rfl⟩

theorem Depths.mem_of_lookup (h : depths.lookup v = some length) : (v, length) ∈ depths := by
  obtain ⟨before, after, rfl, -⟩ := List.lookup_eq_some_iff.mp h
  exact List.mem_append_right _ List.mem_cons_self

/-- A path to a vertex is known that is at least so long. -/
def Depths.Knows (depths : Depths) (v length : Nat) : Prop :=
  ∃ known, depths.lookup v = some known ∧ length ≤ known

/-! ## What is known is so -/

/-- A path from one vertex to another. -/
structure IsPath (g : Graph) (start last : Nat) (path : List Nat) : Prop where
  edges : path.IsChain g.Edge
  head : path.head? = some start
  last : path.getLast? = some last

theorem IsPath.single (g : Graph) (v : Nat) : g.IsPath v v [v] :=
  ⟨.singleton v, rfl, rfl⟩

theorem IsPath.concat (h : g.IsPath start v path) (hedge : g.Edge v w) :
    g.IsPath start w (path ++ [w]) := by
  refine ⟨h.edges.append (.singleton w) ?_, ?_, List.getLast?_concat⟩
  · rintro x hx y hy
    rw [h.last] at hx
    cases hx
    cases hy
    exact hedge
  · rw [List.head?_append, h.head]
    rfl

/-- Depths that are lengths of paths from a vertex. -/
def AreLengths (g : Graph) (start : Nat) (depths : Depths) : Prop :=
  ∀ entry ∈ depths, ∃ path, g.IsPath start entry.1 path ∧ path.length = entry.2

theorem AreLengths.note (h : g.AreLengths start depths) (hpath : g.IsPath start v path) :
    g.AreLengths start (depths.note v path.length) := by
  unfold Depths.note
  refine List.forall_mem_cons.mpr ⟨?_, h⟩
  cases hknown : depths.lookup v with
  | none => exact ⟨path, hpath, (Nat.zero_max _).symm⟩
  | some known =>
    rcases Nat.le_total known path.length with hle | hle
    · exact ⟨path, hpath, (Nat.max_eq_right hle).symm⟩
    · obtain ⟨longer, hlonger, hlength⟩ := h (v, known) (Depths.mem_of_lookup hknown)
      exact ⟨longer, hlonger, hlength.trans (Nat.max_eq_left hle).symm⟩

theorem AreLengths.deepen (h : g.AreLengths start depths) (v : Nat) :
    g.AreLengths start (g.deepen depths v) := by
  unfold Graph.deepen
  split
  next => exact h
  next known hknown =>
    obtain ⟨path, hpath, rfl⟩ := h (v, known) (Depths.mem_of_lookup hknown)
    refine List.foldlRecOn _ _ h fun depths hdepths w hw => ?_
    have hlonger : g.IsPath start w (path ++ [w]) := hpath.concat (mem_successors.mp hw)
    have hnoted := hdepths.note hlonger
    rwa [List.length_append] at hnoted

/-! ## What is so is known -/

namespace Depths.Knows

/-- What is known is known still when more is noted. -/
theorem note (h : depths.Knows v length) (w longer : Nat) :
    (depths.note w longer).Knows v length := by
  obtain ⟨known, hknown, hle⟩ := h
  by_cases heq : v = w
  · subst heq
    refine ⟨max known longer, ?_, hle.trans (Nat.le_max_left ..)⟩
    rw [Depths.note, hknown, List.lookup_cons_self]
    rfl
  · refine ⟨known, ?_, hle⟩
    rw [Depths.note, List.lookup_cons, beq_eq_false_iff_ne.mpr heq]
    exact hknown

theorem of_note (depths : Depths) (v length : Nat) : (depths.note v length).Knows v length :=
  ⟨_, List.lookup_cons_self, Nat.le_max_right ..⟩

theorem notes (h : depths.Knows v length) (longer : Nat) (vertices : List Nat) :
    (vertices.foldl (fun depths w => depths.note w longer) depths).Knows v length :=
  List.foldlRecOn (motive := fun depths : Depths => depths.Knows v length) _ _ h
    fun _ hknows w _ => hknows.note w longer

/-- What is noted of one of several vertices is known in the end. -/
theorem of_notes {vertices : List Nat} (hv : v ∈ vertices) (depths : Depths) (length : Nat) :
    (vertices.foldl (fun depths w => depths.note w length) depths).Knows v length := by
  induction vertices generalizing depths with
  | nil => exact absurd hv List.not_mem_nil
  | cons first rest ih =>
    rcases List.mem_cons.mp hv with rfl | hv
    · exact (of_note depths v length).notes length rest
    · exact ih hv _

theorem deepen (h : depths.Knows v length) (u : Nat) : (g.deepen depths u).Knows v length := by
  unfold Graph.deepen
  split
  next => exact h
  next => exact h.notes ..

/-- From a vertex that a path is known to, paths to its successors become known. -/
theorem of_edge (h : depths.Knows v length) (hedge : g.Edge v w) :
    (g.deepen depths v).Knows w (length + 1) := by
  obtain ⟨known, hknown, hle⟩ := h
  unfold Graph.deepen
  rw [hknown]
  obtain ⟨longer, hlonger, hmore⟩ :=
    of_notes (mem_successors.mpr hedge) depths (known + 1)
  exact ⟨longer, hlonger, by omega⟩

/-- **A path that goes on from a known one becomes known**: where every edge leads forward, the
vertices of the path are looked at one after the other. -/
theorem foldl (h : depths.Knows v length) {path : List Nat} (hpath : (v :: path).IsChain g.Edge)
    (hforward : g.LeadsForward order) (hv : v ∈ order) :
    ∃ last, (order.foldl g.deepen depths).Knows last (length + path.length) := by
  induction order generalizing depths v length path with
  | nil => exact absurd hv List.not_mem_nil
  | cons first rest ih =>
    obtain ⟨hfirst, hrest⟩ := hforward
    rw [List.foldl_cons]
    by_cases hlater : v ∈ rest
    · exact ih (h.deepen first) hpath hrest hlater
    · obtain rfl : v = first := (List.mem_cons.mp hv).resolve_right hlater
      cases path with
      | nil =>
        have hkept : (rest.foldl g.deepen (g.deepen depths v)).Knows v length :=
          List.foldlRecOn (motive := fun depths : Depths => depths.Knows v length) _ _ (h.deepen v)
            fun _ hknows u _ => hknows.deepen u
        exact ⟨v, hkept⟩
      | cons w path =>
        obtain ⟨hedge, hon⟩ := List.isChain_cons_cons.mp hpath
        obtain ⟨last, hlast⟩ := ih (h.of_edge hedge) hon hrest (hfirst w hedge)
        refine ⟨last, ?_⟩
        rwa [List.length_cons, Nat.add_comm path.length, ← Nat.add_assoc]

end Depths.Knows

/-! ## The depth -/

/-- **The depth below a vertex is the length of the longest path from there**, whatever the order is
in which every edge leads forward. -/
theorem depth_le_iff (hforward : g.LeadsForward order) (hstart : start ∈ order) :
    g.depth order start ≤ bound ↔
      ∀ path : List Nat, path.IsChain g.Edge → path.head? = some start → path.length ≤ bound := by
  let depths := order.foldl g.deepen [(start, 1)]
  change (depths.map Prod.snd).max?.getD 0 ≤ bound ↔ _
  constructor
  · intro hbound path hpath hhead
    cases path with
    | nil => exact Nat.zero_le _
    | cons v path =>
      obtain rfl : v = start := Option.some.inj hhead
      have hknown : Depths.Knows [(v, 1)] v 1 := ⟨1, List.lookup_cons_self, Nat.le_refl 1⟩
      obtain ⟨last, length, hlast, hle⟩ := hknown.foldl hpath hforward hstart
      have hmem : length ∈ depths.map Prod.snd :=
        List.mem_map.mpr ⟨(last, length), Depths.mem_of_lookup hlast, rfl⟩
      have hmax : length ≤ (depths.map Prod.snd).max?.getD 0 := List.le_max?_getD_of_mem hmem
      rw [List.length_cons]
      omega
  · intro hbound
    have hfirst : g.AreLengths start [(start, 1)] := by
      rintro entry hentry
      obtain rfl := List.mem_singleton.mp hentry
      exact ⟨[start], .single g start, rfl⟩
    have hlengths : g.AreLengths start depths :=
      List.foldlRecOn _ _ hfirst fun _ h v _ => h.deepen v
    cases hmax : (depths.map Prod.snd).max? with
    | none => exact Nat.zero_le _
    | some length =>
      obtain ⟨entry, hentry, rfl⟩ := List.mem_map.mp (List.max?_mem hmax)
      obtain ⟨path, hpath, hlength⟩ := hlengths entry hentry
      rw [Option.getD_some, ← hlength]
      exact hbound path hpath.edges hpath.head

end Outreach.Graph
