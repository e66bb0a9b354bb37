import Outreach.Execution.Codec

/-!
# What a node brings about

An `ActionResult` is what one attempt at a node comes to: whether it worked, whether the run goes
on, and what it leaves behind.
-/

namespace Outreach

/-- The result of one attempt at a node. -/
structure ActionResult where
  success : Bool
  shouldContinue : Bool
  vars : Option Variables
  nextNode : Option String
  data : Option Json
  error : Option String
  metadata : Members Json

namespace ActionResult

/-- It worked and the run goes on. -/
def proceed : ActionResult :=
  ⟨true, true, none, none, none, none, []⟩

/-- It worked and the run ends here. -/
def finish : ActionResult :=
  { proceed with shouldContinue := false }

/-- It did not work. -/
def failure (error : String) : ActionResult :=
  { finish with success := false, error := some error }

/-- Adds variables. -/
def withVariables (r : ActionResult) (added : Variables) : ActionResult :=
  { r with vars := some (Members.merge (r.vars.getD []) added) }

/-- Adds a variable. -/
def withVariable (r : ActionResult) (name : String) (value : Json) : ActionResult :=
  r.withVariables [(name, value)]

/-- Names the node that comes next. -/
def withNextNode (r : ActionResult) (node : String) : ActionResult :=
  { r with nextNode := some node }

/-- Attaches data. -/
def withData (r : ActionResult) (data : Json) : ActionResult :=
  { r with data := some data }

/-- Adds a remark. -/
def withMetadata (r : ActionResult) (name : String) (value : Json) : ActionResult :=
  { r with metadata := r.metadata.insert name value }

/-- How a result is read. -/
def layout : Layout ActionResult where
  name := "ActionResult"
  fields := [
    .required "success" .bool fun v r => { r with success := v },
    .required "shouldContinue" .bool fun v r => { r with shouldContinue := v },
    .defaulted "variables" (.optional (.membersOf .any)) fun v r => { r with vars := v },
    .defaulted "nextNodeId" (.optional .text) fun v r => { r with nextNode := v },
    .defaulted "data" (.optional .any) fun v r => { r with data := v },
    .defaulted "error" (.optional .text) fun v r => { r with error := v },
    .defaulted "metadata" (.membersOf .any) fun v r => { r with metadata := v }]
  blank := ⟨false, false, none, none, none, none, []⟩

/-- A result as a value. -/
def toJson (r : ActionResult) : Json :=
  .record ([("success", .bool r.success), ("shouldContinue", .bool r.shouldContinue)] ++
    Json.present "variables" (r.vars.map .object) ++
    Json.present "nextNodeId" (r.nextNode.map .string) ++ Json.present "data" r.data ++
    Json.present "error" (r.error.map .string) ++
    (if r.metadata.isEmpty then [] else [("metadata", .object r.metadata)]))

end ActionResult

end Outreach
