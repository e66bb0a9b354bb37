import Outreach.Execution.Codec
import Outreach.Funnel.Basic
import Outreach.Funnel.Verdict
import Outreach.Text.Grid

/-!
# What the program writes

The lines in which a run, an examination, the types of nodes and a snapshot are shown, and the
values that are written in place of lines where values are wanted.
-/

namespace Outreach

namespace NodeType

/-- What nodes of a type do. -/
def description : NodeType → String
  | trigger => "Entry point; records when the run was triggered"
  | sendMessage => "Send a message on the configured channel"
  | sendWhatsapp => "Send a WhatsApp message"
  | sendEmail => "Send an email"
  | sendSms => "Send an SMS"
  | aiResponse => "Generate text with the AI provider"
  | condition => "Evaluate a condition and branch"
  | delay => "Wait before continuing"
  | webhook => "Call an external HTTP endpoint"
  | apiCall => "Call an external HTTP API"
  | updateContact => "Update fields on the contact record"
  | trackEvent => "Emit an analytics event"
  | finish => "Finish the run, optionally saving data"
  | custom _ => "Custom executor"

end NodeType

namespace Report

/-- A label in front of a text, with as many blanks between them as all labels need. -/
def labelled (label text : String) : String :=
  "  " ++ String.ofList (Grid.fit 10 label.toList) ++ " " ++ text

/-! ## Runs -/

/-- How a status is shown. -/
def statusMark : Status → String
  | .completed => "✓ completed"
  | .failed => "✗ failed"
  | .cancelled => "○ cancelled"
  | other => other.label

/-- Hundredths of a number of thousandths, a half to the even neighbour. -/
def hundredths (thousandths : Nat) : Nat :=
  let n := thousandths / 10
  let rest := thousandths % 10
  if 5 < rest ∨ (rest = 5 ∧ n % 2 = 1) then n + 1 else n

/-- A number of milliseconds with two places, in the largest unit of which it holds at least one. -/
def durationText (milliseconds : Nat) : String :=
  if milliseconds = 0 then "0.00ns"
  else if milliseconds < 1000 then Numeral.text milliseconds ++ ".00ms"
  else
    let n := hundredths milliseconds
    Numeral.text (n / 100) ++ "." ++ String.ofList (Numeral.padded 2 (n % 100)) ++ "s"

/-- The table of variables; nothing without variables. -/
def variableLines (vars : Variables) : List String :=
  if vars.isEmpty then []
  else
    let grid : Grid := ⟨["Variable", "Value"], vars.map fun v => [v.1, v.2.compact]⟩
    grid.lines ++ [""]

/-- Something that happened at a node, or outside of the nodes. -/
def noteLine (mark : String) (node : Option String) (message : String) : String :=
  "  " ++ mark ++ " [" ++ node.getD "-" ++ "] " ++ message

/-- The log entries that are shown after a run. -/
def isNotable (entry : LogEntry) : Bool :=
  entry.level == .warn || entry.level == .error

/-- The lines about a run that is over. -/
def run (funnelId : String) (e : Execution) : List String :=
  let duration := durationText ((e.duration?.getD 0).toNat)
  let last := e.currentNode.map fun node => "  Last node: " ++ node
  ["", "  " ++ funnelId ++ " " ++ statusMark e.status ++ " in " ++ duration,
    "  execution " ++ e.id.render] ++ last.toList ++ [""] ++ variableLines e.vars ++
    e.errors.map (fun x => noteLine "✗" x.node x.message) ++
    (e.logs.filter isNotable).map (fun x => noteLine "!" x.node x.message) ++
    (if e.errors.isEmpty then [] else [""])

/-! ## Examinations -/

/-- The lines about an examination of a funnel. -/
def examination (f : Funnel) (v : Verdict) : List String :=
  let outcome := if v.isValid then
      "  ✓ " ++ f.id ++ " is valid (" ++ Numeral.text f.nodes.length ++ " nodes)"
    else "  ✗ " ++ f.id ++ " is invalid"
  ["", outcome] ++ v.errors.map (fun text => "    error " ++ text) ++
    v.warnings.map (fun text => "    warning " ++ text) ++ [""]

/-- An examination of a funnel as a value. -/
def examinationValue (f : Funnel) (v : Verdict) : Json :=
  .record [("funnelId", .string f.id), ("nodes", .nat f.nodes.length), ("isValid", .bool v.isValid),
    ("errors", .array (v.errors.map .string)), ("warnings", .array (v.warnings.map .string))]

/-! ## Types of nodes -/

/-- The lines about types. -/
def types (list : List NodeType) : List String :=
  let grid : Grid := ⟨["Type", "Description"], list.map fun t => [t.label, t.description]⟩
  [""] ++ grid.lines ++ [""]

/-- Types as a value. -/
def typesValue (list : List NodeType) : Json :=
  .array (list.map fun t =>
    .record [("type", .string t.label), ("description", .string t.description)])

/-! ## Snapshots -/

/-- The lines about a snapshot. -/
def snapshot (e : Execution) : List String :=
  let ended := e.endedAt.map fun t => labelled "Ended:" t.renderNumeric
  let last := e.currentNode.map fun node => labelled "Last node:" node
  ["", "  Execution " ++ e.id.render, labelled "Funnel:" e.funnelId,
    labelled "Status:" e.status.label, labelled "Started:" e.startedAt.renderNumeric] ++
    ended.toList ++ last.toList ++
    [labelled "Logs:" (Numeral.text e.logs.length),
      labelled "Errors:" (Numeral.text e.errors.length), ""]

end Report

end Outreach
