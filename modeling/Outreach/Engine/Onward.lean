import Outreach.Execution.Evaluation
import Outreach.Funnel.Basic

/-!
# Which nodes come next

A node that a result names comes next and no other. Without one, every connection whose condition
holds leads on, in the order of the connections. A target that does not exist is passed over.
-/

namespace Outreach

namespace Execution

/-- Notes that a target does not exist. -/
def noteMissing (e : Execution) (moment : Moment) (source target : String) : Execution :=
  e.log moment .warn (some source) ("next node '" ++ target ++ "' not found; skipping") none

/-- Notes that a connection is not followed. -/
def noteSkipped (e : Execution) (moment : Moment) (source connection : String) : Execution :=
  e.log moment .debug (some source) ("connection '" ++ connection ++ "' skipped: condition not met")
    none

end Execution

namespace Funnel

/-- Whether a connection is followed. -/
def follows (moment : Moment) (source : String) (e : Execution) (c : Connection) : Bool × Execution :=
  match c.condition with
  | none => (true, e)
  | some condition =>
    match e.check moment condition (some source) with
    | (true, e) => (true, e)
    | (false, e) => (false, e.noteSkipped moment source c.id)

/-- The node with an identifier, as a list of at most one; a missing one is noted. -/
def target (f : Funnel) (moment : Moment) (source : String) (e : Execution) (id : String) :
    List Node × Execution :=
  match f.node? id with
  | some node => ([node], e)
  | none => ([], e.noteMissing moment source id)

/-- The nodes that connections lead to. -/
def targets (f : Funnel) (moment : Moment) (source : String) :
    List Connection → Execution → List Node × Execution
  | [], e => ([], e)
  | c :: rest, e =>
    match follows moment source e c with
    | (true, e) =>
      let (first, e) := f.target moment source e c.target
      let (others, e) := targets f moment source rest e
      (first ++ others, e)
    | (false, e) => targets f moment source rest e

/-- The nodes that come after a node. -/
def onward (f : Funnel) (moment : Moment) (node : Node) (named : Option String) (e : Execution) :
    List Node × Execution :=
  match named with
  | some id => f.target moment node.id e id
  | none => f.targets moment node.id node.connections e

end Funnel

end Outreach
