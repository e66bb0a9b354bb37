import Outreach.Executor.Completing
import Outreach.Executor.Integrating
import Outreach.Executor.Messaging
import Outreach.Executor.Steering

/-!
# The built-in executors

Each of the thirteen built-in types has an executor. The four labels for messages share one, and so
do the two for HTTP requests.
-/

namespace Outreach

namespace Executor

/-- The executor of a built-in type. -/
def builtIn? (channels : List Channel) : NodeType → Option Executor
  | .trigger => some trigger
  | .sendMessage | .sendWhatsapp | .sendEmail | .sendSms => some (messaging channels)
  | .aiResponse => some completing
  | .condition => some branch
  | .delay => some delay
  | .webhook | .apiCall => some http
  | .updateContact => some contact
  | .trackEvent => some tracking
  | .finish => some finish
  | .custom _ => none

/-- Adds one to the whole number below `2 ^ 63` that a variable holds; what is none counts as
zero. -/
def increment (vars : Variables) (name : String) : Json :=
  match Members.get? name vars with
  | some (.number (.int i)) => .int (if i < Nat.pow 2 63 then i + 1 else 1)
  | _ => .int 1

/-- What a delegated node brings about. -/
def runErrand (e : Execution) (errand : Errand) : ActionResult :=
  match errand.counter with
  | some name => errand.result.withVariable name (increment e.vars name)
  | none => errand.result

/-- Delegates the nodes of a type; their settings are always in order. -/
def delegating (label : String) (isExempt : Bool) : Executor where
  family := "delegate " ++ label
  isExempt
  examine := fun _ => Verdict.valid
  perform := fun _ node e =>
    .ask (.delegate label node) fun _ errand => .done (runErrand e errand)

end Executor

namespace Registry

/-- The registry of the built-in types, with the channels that have a sender. -/
def builtIn (channels : List Channel) : Registry :=
  NodeType.builtIn.foldl (fun registry type =>
    match Executor.builtIn? channels type with
    | some x => registry.register type x
    | none => registry) []

end Registry

end Outreach
