import Outreach.Source.JsonText
import Outreach.Text.Blank
import Outreach.Text.Split
import Outreach.Variables.Path

/-!
# Variables from the command line

Variables are given as one object, as assignments `key=value`, or both; an assignment wins over the
object and over the assignments before it. The key ends at the first equals sign, and white space
around it does not count. The value is what its text is in JSON, or else the text itself.
-/

namespace Outreach

/-- Why what was given makes no variables. -/
inductive AssignmentFault where
  | noObject (fault : Fault)
  | noSign (assignment : String)
  | emptyKey (assignment : String)
  deriving DecidableEq, Repr

namespace AssignmentFault

/-- The text of a fault. -/
def message : AssignmentFault → String
  | noObject _ => "--vars must be a JSON object"
  | noSign assignment => "invalid --var '" ++ assignment ++ "': expected KEY=VALUE"
  | emptyKey assignment => "invalid --var '" ++ assignment ++ "': empty key"

/-- What lies behind a fault. -/
def causes : AssignmentFault → List String
  | noObject fault => [fault.message]
  | noSign _ | emptyKey _ => []

end AssignmentFault

namespace Assignment

/-- The value of an assignment. -/
def value (text : String) : Json :=
  (Json.parse? text).getD (.string text)

/-- The key and the value of an assignment. -/
def read (assignment : String) : Except AssignmentFault (String × Json) :=
  match Text.splitOnce '=' assignment.toList with
  | none => .error (.noSign assignment)
  | some (before, behind) =>
    let key := Text.trim before
    if key.isEmpty then .error (.emptyKey assignment)
    else .ok (String.ofList key, value (String.ofList behind))

/-- The variables of an object, none without one. -/
def ofObject? : Option String → Except AssignmentFault Variables
  | none => .ok []
  | some text =>
    ((Reader.membersOf Reader.any).ofJsonText text).mapError AssignmentFault.noObject

/-- The variables of an object and of assignments. -/
def vars (object : Option String) (assignments : List String) :
    Except AssignmentFault Variables := do
  let given ← ofObject? object
  let entries ← assignments.mapM read
  .ok (Members.merge given entries)

end Assignment

end Outreach
