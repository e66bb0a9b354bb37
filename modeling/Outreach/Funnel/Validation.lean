import Outreach.Engine.Limits
import Outreach.Executor.Basic
import Outreach.Funnel.Graph

/-!
# Which funnels are valid

A funnel is examined as a whole: its size, the identifiers of its nodes, its entry, the settings of
every node, every connection, and its graph. All errors are collected.
-/

namespace Outreach.Funnel

/-- An error for every identifier that an earlier node has already. -/
def checkIds : (seen : List String) → List Node → Verdict → Verdict
  | _, [], v => v
  | seen, n :: rest, v =>
    checkIds (n.id :: seen) rest
      (v.errorIf (seen.contains n.id) ("duplicate node ID '" ++ n.id ++ "'"))

/-- The name of a node in messages. -/
def scope (n : Node) : String :=
  "node '" ++ n.id ++ "'"

/-- What is wrong with the condition of a connection. -/
def checkCondition (about : String) (v : Verdict) (condition : Condition) : Verdict :=
  (v.errorIf (!condition.operator.isKnown)
    (about ++ " uses unknown operator '" ++ condition.operator.label ++ "'")).errorIf
    (Text.isBlankText condition.field) (about ++ " has an empty condition field")

/-- What is wrong with a connection of a node. -/
def checkConnection (f : Funnel) (n : Node) (v : Verdict) (c : Connection) : Verdict :=
  let about := scope n ++ ": connection '" ++ c.id ++ "'"
  let v := v.warningIf (c.source != n.id) (about ++ " declares source '" ++ c.source ++ "'")
  let v := v.errorIf (!f.ids.contains c.target) (about ++ " targets unknown node '" ++ c.target ++ "'")
  match c.condition with
  | none => v
  | some condition => checkCondition about v condition

/-- What is wrong with a node. -/
def checkNode (registry : Registry) (f : Funnel) (v : Verdict) (n : Node) : Verdict :=
  let v := match registry.executor? n.type with
    | some executor => v.absorb (scope n) (executor.examine n.settings)
    | none =>
      v.error (scope n ++ ": no executor registered for type '" ++ n.type.label ++ "'")
  n.connections.foldl (f.checkConnection n) v

/-- What is wrong with the graph: a cycle, or else a path from the entry that is too long. -/
def checkGraph (f : Funnel) (limits : Limits) (v : Verdict) : Verdict :=
  let g := f.graph
  match g.order? with
  | none =>
    v.error ("funnel contains a cycle through node '" ++
      (f.ids.getD (g.cycleVertex?.getD 0) "") ++ "'")
  | some order =>
    match f.entry?.bind fun n => f.ids.idxOf? n.id with
    | none => v
    | some start =>
      let depth := g.depth order start
      v.errorIf (limits.depth < depth)
        ("funnel is " ++ Numeral.text depth ++ " nodes deep, more than the limit of " ++
          Numeral.text limits.depth)

/-- Examines a funnel. -/
def validate (f : Funnel) (registry : Registry) (limits : Limits) : Verdict :=
  if f.nodes.isEmpty then Verdict.valid.error "funnel has no nodes"
  else
    let count := f.nodes.length
    let v := Verdict.valid.errorIf (limits.nodes < count)
      ("funnel has " ++ Numeral.text count ++ " nodes, more than the limit of " ++
        Numeral.text limits.nodes)
    let v := checkIds [] f.nodes v
    let v := v.errorIf f.entry?.isNone
      "funnel has no entry node (no trigger and every node has an incoming connection)"
    let v := f.nodes.foldl (f.checkNode registry) v
    f.checkGraph limits v

end Outreach.Funnel
