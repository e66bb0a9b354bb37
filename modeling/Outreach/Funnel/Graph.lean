import Outreach.Funnel.Basic

/-!
# The graph of a funnel

The vertices are the identifiers of the nodes, numbered in the order in which they first occur; every
connection whose source and target both exist is an edge.

A graph has no cycle if its vertices can be listed so that every edge leads forward. If it has one, a
search in depth names a vertex on or behind it. The depth of a graph below a vertex is the number of
vertices on the longest path from there; it is found along such a list.
-/

namespace Outreach

/-- A directed graph on the numbers below `size`. -/
structure Graph where
  size : Nat
  edges : List (Nat × Nat)
  bounded : ∀ e ∈ edges, e.1 < size ∧ e.2 < size

namespace Graph

/-- The vertices. -/
def vertices (g : Graph) : List Nat :=
  List.range g.size

/-- The vertices that edges lead to from a vertex, the edge that was added last first. -/
def successors (g : Graph) (v : Nat) : List Nat :=
  ((g.edges.filter fun e => e.1 == v).map Prod.snd).reverse

/-- The vertices from which edges lead to a vertex, the edge that was added last first. -/
def predecessors (g : Graph) (v : Nat) : List Nat :=
  ((g.edges.filter fun e => e.2 == v).map Prod.fst).reverse

/-- Whether an edge leads to a vertex from one of those that are left. -/
def isHeld (g : Graph) (left : List Nat) (v : Nat) : Bool :=
  g.edges.any fun e => e.2 == v && left.contains e.1

/-- The vertices that no edge leads to from what is left. -/
def free (g : Graph) (left : List Nat) : List Nat :=
  left.filter fun v => !g.isHeld left v

/-- The vertices that an edge leads to from what is left. -/
def held (g : Graph) (left : List Nat) : List Nat :=
  left.filter fun v => g.isHeld left v

/-- Lists the vertices that are left so that every edge leads forward: the free ones first, and so on
with the others. There is no such list if none is free. -/
def sort (g : Graph) : (rounds : Nat) → (left : List Nat) → Option (List Nat)
  | 0, left => if left.isEmpty then some [] else none
  | rounds + 1, left =>
    if (g.free left).isEmpty then if left.isEmpty then some [] else none
    else (g.sort rounds (g.held left)).map (g.free left ++ ·)

/-- The vertices in an order in which every edge leads forward, if there is no cycle. -/
def order? (g : Graph) : Option (List Nat) :=
  g.sort g.size g.vertices

/-- For vertices the number of vertices on a path to them; what was added last counts. -/
abbrev Depths := List (Nat × Nat)

/-- Takes note of a path to a vertex, unless a longer one is known. -/
def Depths.note (depths : Depths) (v length : Nat) : Depths :=
  (v, max ((depths.lookup v).getD 0) length) :: depths

/-- Goes on along the edges from a vertex that a path is known to. -/
def deepen (g : Graph) (depths : Depths) (v : Nat) : Depths :=
  match depths.lookup v with
  | none => depths
  | some length =>
    (g.successors v).foldl (fun depths w => depths.note w (length + 1)) depths

/-- The number of vertices on the longest path from a vertex, found vertex by vertex in an order in
which every edge leads forward. -/
def depth (g : Graph) (order : List Nat) (start : Nat) : Nat :=
  ((order.foldl g.deepen [(start, 1)]).map Prod.snd).max?.getD 0

/-- A search in depth: what it has found, what it is done with, and what it still has to look at. -/
structure Search where
  found : List Nat
  finished : List Nat
  stack : List Nat

namespace Search

/-- Looks at the topmost vertex. At the first look its successors go on top of it, unless it is one
of them; at the second it is done with. -/
def step (g : Graph) (s : Search) : Search ⊕ Nat :=
  match s.stack with
  | [] => .inl s
  | v :: rest =>
    if s.found.contains v then
      .inl { s with
        stack := rest,
        finished := if s.finished.contains v then s.finished else v :: s.finished }
    else
      let next := g.successors v
      if next.contains v then .inr v
      else
        let found := v :: s.found
        .inl { s with found, stack := (next.filter fun w => !found.contains w).reverse ++ s.stack }

/-- Searches until nothing is left to look at or an edge leads from a vertex to itself. -/
def run (g : Graph) : (fuel : Nat) → Search → Search ⊕ Nat
  | 0, s => .inl s
  | fuel + 1, s =>
    if s.stack.isEmpty then .inl s
    else match s.step g with
      | .inl s => run g fuel s
      | .inr v => .inr v

/-- Searches from every vertex that was not found before. -/
def runAll (g : Graph) (fuel : Nat) : List Nat → Search → Search ⊕ Nat
  | [], s => .inl s
  | v :: rest, s =>
    if s.found.contains v then runAll g fuel rest s
    else match run g fuel { s with stack := [v] } with
      | .inl s => runAll g fuel rest s
      | .inr w => .inr w

end Search

/-- Walks against the edges through vertices that were not met before: those met by then, and the
second vertex met on this walk. -/
def backward (g : Graph) : (fuel : Nat) → (met stack : List Nat) → (count : Nat) → List Nat × Option Nat
  | 0, met, _, _ => (met, none)
  | _, met, [], _ => (met, none)
  | fuel + 1, met, v :: stack, count =>
    if met.contains v then backward g fuel met stack count
    else if count = 1 then (v :: met, some v)
    else
      let met := v :: met
      backward g fuel met
        (((g.predecessors v).filter fun w => !met.contains w).reverse ++ stack) (count + 1)

/-- The first vertex that a walk against the edges meets beside the one that it begins at. -/
def firstBehind (g : Graph) (fuel : Nat) : (starts met : List Nat) → Option Nat
  | [], _ => none
  | v :: rest, met =>
    match g.backward fuel met [v] 0 with
    | (_, some w) => some w
    | (met, none) => firstBehind g fuel rest met

/-- The vertex by which a cycle is named. -/
def cycleVertex? (g : Graph) : Option Nat :=
  let fuel := 2 * (g.size + g.edges.length) + 2
  match Search.runAll g fuel g.vertices ⟨[], [], []⟩ with
  | .inr v => some v
  | .inl s => g.firstBehind fuel s.finished []

end Graph

namespace Funnel

/-- The identifiers of the nodes, each once. -/
def ids (f : Funnel) : List String :=
  (f.nodes.map Node.id).eraseDups

/-- The edge of a connection, if its source and its target both exist. -/
def edge? (f : Funnel) (c : Connection) : Option (Nat × Nat) :=
  match f.ids.idxOf? c.source, f.ids.idxOf? c.target with
  | some source, some target => some (source, target)
  | _, _ => none

theorem edge?_lt {f : Funnel} {c : Connection} {e : Nat × Nat} (h : f.edge? c = some e) :
    e.1 < f.ids.length ∧ e.2 < f.ids.length := by
  unfold edge? at h
  split at h
  next source target hsource htarget =>
    cases h
    obtain ⟨hs, -⟩ := List.idxOf?_eq_some_iff.mp hsource
    obtain ⟨ht, -⟩ := List.idxOf?_eq_some_iff.mp htarget
    exact ⟨hs, ht⟩
  next => cases h

/-- The graph of a funnel. -/
def graph (f : Funnel) : Graph where
  size := f.ids.length
  edges := f.connections.filterMap f.edge?
  bounded := by
    intro e he
    obtain ⟨c, -, hc⟩ := List.mem_filterMap.mp he
    exact edge?_lt hc

end Funnel

end Outreach
