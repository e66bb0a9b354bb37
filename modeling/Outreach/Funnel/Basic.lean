import Outreach.Funnel.Condition
import Outreach.Funnel.NodeType

/-!
# Funnels

A funnel is a graph of nodes. Every node has a type, settings that only its type understands, and
connections to the nodes that come next, each of them guarded by a condition or not.
-/

namespace Outreach

/-- An edge of a funnel. The source that it names need not be the node that holds it. -/
structure Connection where
  id : String
  source : String
  target : String
  condition : Option Condition

/-- Where a node stands on the canvas of the editor. -/
structure Position where
  x : Double
  y : Double
  deriving DecidableEq

/-- A step of a funnel. -/
structure Node where
  id : String
  type : NodeType
  name : String
  settings : Json
  connections : List Connection
  position : Option Position

/-- A graph of nodes. -/
structure Funnel where
  id : String
  name : String
  description : Option String
  version : Nat
  nodes : List Node
  tags : List String
  metadata : Members Json

namespace Connection

/-- How a connection is read. -/
def layout : Layout Connection where
  name := "Connection"
  fields := [
    .required "id" .text fun v c => { c with id := v },
    .required "sourceNodeId" .text fun v c => { c with source := v },
    .required "targetNodeId" .text fun v c => { c with target := v },
    .defaulted "condition" (.optional Condition.layout.read) fun v c => { c with condition := v }]
  blank := ⟨"", "", "", none⟩

/-- A connection as a value. -/
def toJson (c : Connection) : Json :=
  .record ([("id", .string c.id), ("sourceNodeId", .string c.source),
    ("targetNodeId", .string c.target)] ++ (c.condition.map fun g => ("condition", g.toJson)).toList)

end Connection

namespace Position

/-- How a position is read. -/
def layout : Layout Position where
  name := "NodePosition"
  fields := [
    .required "x" .double fun v p => { p with x := v },
    .required "y" .double fun v p => { p with y := v }]
  blank := ⟨.zero false, .zero false⟩

/-- A position as a value. -/
def toJson (p : Position) : Json :=
  .record [("x", .double p.x), ("y", .double p.y)]

end Position

namespace Node

/-- How a node is read. -/
def layout : Layout Node where
  name := "FunnelNode"
  fields := [
    .required "id" .text fun v n => { n with id := v },
    .required "type" .text fun v n => { n with type := .ofLabel v },
    .defaulted "name" .text fun v n => { n with name := v },
    .defaulted "config" .any fun v n => { n with settings := v },
    .defaulted "connections" (.listOf Connection.layout.read) fun v n => { n with connections := v },
    .defaulted "position" (.optional Position.layout.read) fun v n => { n with position := v }]
  blank := ⟨"", .custom "", "", .object [], [], none⟩

/-- A node as a value. -/
def toJson (n : Node) : Json :=
  .record ([("id", .string n.id), ("type", .string n.type.label), ("name", .string n.name),
    ("config", n.settings), ("connections", .array (n.connections.map Connection.toJson))] ++
    (n.position.map fun p => ("position", p.toJson)).toList)

/-- The name that a node goes by: its own, or its identifier if it has none. -/
def label (n : Node) : String :=
  if n.name.isEmpty then n.id else n.name

end Node

namespace Funnel

/-- How a funnel is read. -/
def layout : Layout Funnel where
  name := "Funnel"
  fields := [
    .required "id" .text fun v f => { f with id := v },
    .defaulted "name" .text fun v f => { f with name := v },
    .defaulted "description" (.optional .text) fun v f => { f with description := v },
    .defaulted "version" .nat32 fun v f => { f with version := v },
    .required "nodes" (.listOf Node.layout.read) fun v f => { f with nodes := v },
    .defaulted "tags" (.listOf .text) fun v f => { f with tags := v },
    .defaulted "metadata" (.membersOf .any) fun v f => { f with metadata := v }]
  blank := ⟨"", "", none, 1, [], [], []⟩

/-- A funnel as a value; tags and metadata are left out where there are none. -/
def toJson (f : Funnel) : Json :=
  .record ([("id", .string f.id), ("name", .string f.name), ("version", .nat f.version),
    ("nodes", .array (f.nodes.map Node.toJson))] ++
    (f.description.map fun d => ("description", .string d)).toList ++
    (if f.tags.isEmpty then [] else [("tags", .array (f.tags.map .string))]) ++
    (if f.metadata.isEmpty then [] else [("metadata", .object f.metadata)]))

/-- The first node with an identifier. -/
def node? (f : Funnel) (id : String) : Option Node :=
  f.nodes.find? fun n => n.id == id

/-- All connections, node by node. -/
def connections (f : Funnel) : List Connection :=
  f.nodes.flatMap Node.connections

/-- Whether a connection leads to a node. -/
def hasIncoming (f : Funnel) (id : String) : Bool :=
  f.connections.any fun c => c.target == id

/-- The node that a run starts from: the first trigger, or else the first node that no connection
leads to. -/
def entry? (f : Funnel) : Option Node :=
  (f.nodes.find? fun n => n.type == .trigger).or
    (f.nodes.find? fun n => !f.hasIncoming n.id)

end Funnel

end Outreach
