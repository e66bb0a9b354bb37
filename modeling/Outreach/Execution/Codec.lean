import Outreach.Execution.Basic
import Outreach.Source.Record

/-!
# Executions as values

How executions are written as values and read from them. What is absent is left out in writing, and
null reads as absent.
-/

namespace Outreach

namespace Reader

/-- A text that stands for something. -/
def parsed {α : Type} (expected : String) (parse : String → Except Misfit α) : Reader α :=
  fun _ source =>
    match source with
    | .string s => (parse s).mapError .misfit
    | .word s _ => (parse s).mapError .misfit
    | source => refuse expected source

/-- An identifier. -/
def identifier : Reader Identifier :=
  parsed "a formatted UUID string" fun s =>
    (Identifier.read s).mapError fun fault => .badIdentifier fault.message

/-- An instant. -/
def instant : Reader Instant :=
  parsed "an RFC 3339 formatted date and time string" fun s =>
    (Instant.read s).mapError fun fault => .badTimestamp fault.message

/-- One of a list of things with labels. -/
def labelled {α : Type} (all : List α) (label : α → String) : Reader α :=
  variant (all.map fun a => (label a, a))

end Reader

namespace Json

/-- The entry of a value that may be absent. -/
def present (name : String) (value : Option Json) : List (String × Json) :=
  (value.map fun v => (name, v)).toList

/-- An identifier as a value. -/
def identifier (id : Identifier) : Json :=
  .string id.render

/-- An instant as a value. -/
def instant (t : Instant) : Json :=
  .string t.render

end Json

namespace LogEntry

/-- How a log entry is read. -/
def layout : Layout LogEntry where
  name := "ExecutionLog"
  fields := [
    .required "id" .identifier fun v l => { l with id := v },
    .required "timestamp" .instant fun v l => { l with timestamp := v },
    .required "level" (.labelled Level.all Level.label) fun v l => { l with level := v },
    .defaulted "nodeId" (.optional .text) fun v l => { l with node := v },
    .required "message" .text fun v l => { l with message := v },
    .defaulted "data" (.optional .any) fun v l => { l with data := v }]
  blank := ⟨default, default, .info, none, "", none⟩

/-- A log entry as a value. -/
def toJson (l : LogEntry) : Json :=
  .record ([("id", .identifier l.id), ("timestamp", .instant l.timestamp),
    ("level", .string l.level.label), ("message", .string l.message)] ++
    Json.present "nodeId" (l.node.map .string) ++ Json.present "data" l.data)

end LogEntry

namespace ErrorEntry

/-- How an error is read. -/
def layout : Layout ErrorEntry where
  name := "ExecutionError"
  fields := [
    .required "id" .identifier fun v l => { l with id := v },
    .required "timestamp" .instant fun v l => { l with timestamp := v },
    .defaulted "nodeId" (.optional .text) fun v l => { l with node := v },
    .required "message" .text fun v l => { l with message := v },
    .defaulted "stack" (.optional .text) fun v l => { l with stack := v },
    .required "isRetryable" .bool fun v l => { l with isRetryable := v }]
  blank := ⟨default, default, none, "", none, false⟩

/-- An error as a value. -/
def toJson (l : ErrorEntry) : Json :=
  .record ([("id", .identifier l.id), ("timestamp", .instant l.timestamp),
    ("message", .string l.message), ("isRetryable", .bool l.isRetryable)] ++
    Json.present "nodeId" (l.node.map .string) ++ Json.present "stack" (l.stack.map .string))

end ErrorEntry

namespace Execution

/-- How an execution is read. -/
def layout : Layout Execution where
  name := "ExecutionContext"
  fields := [
    .required "id" .identifier fun v e => { e with id := v },
    .required "funnelId" .text fun v e => { e with funnelId := v },
    .defaulted "triggerId" (.optional .text) fun v e => { e with triggerId := v },
    .required "status" (.labelled Status.all Status.label) fun v e => { e with status := v },
    .defaulted "variables" (.membersOf .any) fun v e => { e with vars := v },
    .defaulted "currentNodeId" (.optional .text) fun v e => { e with currentNode := v },
    .defaulted "logs" (.listOf LogEntry.layout.read) fun v e => { e with logs := v },
    .defaulted "errors" (.listOf ErrorEntry.layout.read) fun v e => { e with errors := v },
    .required "startedAt" .instant fun v e => { e with startedAt := v },
    .defaulted "endedAt" (.optional .instant) fun v e => { e with endedAt := v },
    .defaulted "metadata" (.membersOf .any) fun v e => { e with metadata := v }]
  blank := ⟨default, "", none, .pending, [], none, [], [], default, none, []⟩

/-- An execution as a value. -/
def toJson (e : Execution) : Json :=
  .record ([("id", .identifier e.id), ("funnelId", .string e.funnelId),
    ("status", .string e.status.label), ("variables", .object e.vars),
    ("logs", .array (e.logs.map LogEntry.toJson)), ("errors", .array (e.errors.map ErrorEntry.toJson)),
    ("startedAt", .instant e.startedAt), ("metadata", .object e.metadata)] ++
    Json.present "triggerId" (e.triggerId.map .string) ++
    Json.present "currentNodeId" (e.currentNode.map .string) ++
    Json.present "endedAt" (e.endedAt.map .instant))

end Execution

end Outreach
