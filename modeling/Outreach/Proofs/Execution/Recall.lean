import Outreach.Proofs.Execution.Identifier
import Outreach.Proofs.Source.ReadBack
import Outreach.Proofs.Time.Written
import Outreach.Store.Basic

/-!
# What is read back of an execution

The snapshot of an execution reads as the execution, field by field and to the nanosecond, exactly
when its value is not nested too deep to be read (`Snapshot.read_ofExecution`). One thing is lost:
a log entry that was given null for its data has no data afterwards (`LogEntry.recalled`).
-/

namespace Outreach

namespace Identifier

/-- An identifier of 128 bits. -/
def IsProper (id : Identifier) : Prop :=
  id.value < 2 ^ 128

theorem readsBack {id : Identifier} (h : id.IsProper) :
    Reader.identifier.ReadsBack (.identifier id) id := by
  refine Reader.readsBack_parsed ?_
  rw [read_render h]
  rfl

end Identifier

theorem Instant.readsBack {t : Instant} (h : t.IsProper) :
    Reader.instant.ReadsBack (.instant t) t := by
  refine Reader.readsBack_parsed ?_
  rw [Instant.read_render h]
  rfl

theorem Level.readsBack (level : Level) :
    (Reader.labelled Level.all Level.label).ReadsBack (.string level.label) level :=
  Reader.readsBack_labelled (by cases level <;> decide) (by cases level <;> decide)

theorem Status.readsBack (status : Status) :
    (Reader.labelled Status.all Status.label).ReadsBack (.string status.label) status :=
  Reader.readsBack_labelled (by cases status <;> decide) (by cases status <;> decide)

/-- A text that may be absent is read as present where it is written. -/
theorem Reader.readsBack_optional_text (text : Option String) :
    ∀ s ∈ text, (Reader.optional .text).ReadsBack (.string s) (some s) :=
  fun s _ => (readsBack_text s).optional rfl

/-! ## Log entries -/

namespace LogEntry

/-- A log entry whose parts can all be written and read back. -/
structure IsProper (l : LogEntry) : Prop where
  id : l.id.IsProper
  timestamp : l.timestamp.IsProper
  data : ∀ v ∈ l.data, v.IsProper

/-- Data as they are read back: null is read as absent. -/
def recalledData (v : Json) : Option Json :=
  if v.isNull then none else some v

/-- A log entry as it is read back. -/
def recalled (l : LogEntry) : LogEntry :=
  { l with data := l.data.bind recalledData }

theorem readsBack_data {v : Json} (h : v.IsProper) :
    (Reader.optional .any).ReadsBack v (recalledData v) := by
  unfold recalledData
  cases hv : v.isNull with
  | true =>
    cases v <;> first | exact Reader.readsBack_absent .any | cases hv
  | false => exact (Reader.readsBack_any h).optional hv

/-- The entries of a log entry, in the order in which they are written. -/
def entries (l : LogEntry) : List (WrittenEntry LogEntry) :=
  WrittenEntry.present "data" l.data (fun v => v) (fun v l => { l with data := v }) recalledData ++
    [.of "id" (.identifier l.id) (fun v l => { l with id := v }) l.id,
      .of "level" (.string l.level.label) (fun v l => { l with level := v }) l.level,
      .of "message" (.string l.message) (fun v l => { l with message := v }) l.message] ++
    WrittenEntry.present "nodeId" l.node .string (fun v l => { l with node := v }) some ++
    [.of "timestamp" (.instant l.timestamp) (fun v l => { l with timestamp := v }) l.timestamp]

theorem toJson_eq (l : LogEntry) : l.toJson = .object (Layout.written l.entries) := by
  obtain ⟨id, timestamp, level, node, message, data⟩ := l
  cases node <;> cases data <;>
    simp only [toJson, entries, Json.record, Json.present, WrittenEntry.present, WrittenEntry.of,
      Layout.written, Members.ofEntries, Members.merge, Members.insert, Option.map_some,
      Option.map_none, Option.toList_some, Option.toList_none, List.nil_append, List.cons_append,
      List.append_nil, List.map_cons, List.map_nil, List.foldl_cons, List.foldl_nil,
      String.reduceLT, String.reduceEq, if_true, if_false]

theorem updateAll_entries (l : LogEntry) : Layout.updateAll l.entries layout.blank = l.recalled := by
  obtain ⟨id, timestamp, level, node, message, data⟩ := l
  cases node <;> cases data <;> rfl

theorem takes_entries {l : LogEntry} (h : l.IsProper) :
    ∀ entry ∈ l.entries, layout.Takes entry := by
  simp only [entries, List.forall_mem_append, List.forall_mem_cons]
  refine ⟨⟨⟨?_, ?_, ?_, ?_, nofun⟩, ?_⟩, ?_, nofun⟩
  · exact Layout.takes_present rfl fun v hv => readsBack_data (h.data v hv)
  · exact Layout.takes_required rfl (Identifier.readsBack h.id)
  · exact Layout.takes_required rfl (Level.readsBack l.level)
  · exact Layout.takes_required rfl (Reader.readsBack_text l.message)
  · exact Layout.takes_present rfl (Reader.readsBack_optional_text l.node)
  · exact Layout.takes_required rfl (Instant.readsBack h.timestamp)

theorem readsBack {l : LogEntry} (h : l.IsProper) : layout.read.ReadsBack l.toJson l.recalled := by
  have hback := Layout.readsBack (takes_entries h) (Layout.isAscending_of_record l.toJson_eq)
    (by simp [layout, entries, Field.required, Field.defaulted, WrittenEntry.of])
  rwa [← toJson_eq, updateAll_entries] at hback

end LogEntry

/-! ## Errors -/

namespace ErrorEntry

/-- An error whose parts can all be written and read back. -/
structure IsProper (r : ErrorEntry) : Prop where
  id : r.id.IsProper
  timestamp : r.timestamp.IsProper

/-- The entries of an error, in the order in which they are written. -/
def entries (r : ErrorEntry) : List (WrittenEntry ErrorEntry) :=
  [.of "id" (.identifier r.id) (fun v r => { r with id := v }) r.id,
    .of "isRetryable" (.bool r.isRetryable) (fun v r => { r with isRetryable := v }) r.isRetryable,
    .of "message" (.string r.message) (fun v r => { r with message := v }) r.message] ++
  WrittenEntry.present "nodeId" r.node .string (fun v r => { r with node := v }) some ++
  WrittenEntry.present "stack" r.stack .string (fun v r => { r with stack := v }) some ++
  [.of "timestamp" (.instant r.timestamp) (fun v r => { r with timestamp := v }) r.timestamp]

theorem toJson_eq (r : ErrorEntry) : r.toJson = .object (Layout.written r.entries) := by
  obtain ⟨id, timestamp, node, message, stack, isRetryable⟩ := r
  cases node <;> cases stack <;>
    simp only [toJson, entries, Json.record, Json.present, WrittenEntry.present, WrittenEntry.of,
      Layout.written, Members.ofEntries, Members.merge, Members.insert, Option.map_some,
      Option.map_none, Option.toList_some, Option.toList_none, List.nil_append, List.cons_append,
      List.append_nil, List.map_cons, List.map_nil, List.foldl_cons, List.foldl_nil,
      String.reduceLT, String.reduceEq, if_true, if_false]

theorem updateAll_entries (r : ErrorEntry) : Layout.updateAll r.entries layout.blank = r := by
  obtain ⟨id, timestamp, node, message, stack, isRetryable⟩ := r
  cases node <;> cases stack <;> rfl

theorem takes_entries {r : ErrorEntry} (h : r.IsProper) :
    ∀ entry ∈ r.entries, layout.Takes entry := by
  simp only [entries, List.forall_mem_append, List.forall_mem_cons]
  refine ⟨⟨⟨⟨?_, ?_, ?_, nofun⟩, ?_⟩, ?_⟩, ?_, nofun⟩
  · exact Layout.takes_required rfl (Identifier.readsBack h.id)
  · exact Layout.takes_required rfl (Reader.readsBack_bool r.isRetryable)
  · exact Layout.takes_required rfl (Reader.readsBack_text r.message)
  · exact Layout.takes_present rfl (Reader.readsBack_optional_text r.node)
  · exact Layout.takes_present rfl (Reader.readsBack_optional_text r.stack)
  · exact Layout.takes_required rfl (Instant.readsBack h.timestamp)

theorem readsBack {r : ErrorEntry} (h : r.IsProper) : layout.read.ReadsBack r.toJson r := by
  have hback := Layout.readsBack (takes_entries h) (Layout.isAscending_of_record r.toJson_eq)
    (by simp [layout, entries, Field.required, Field.defaulted, WrittenEntry.of])
  rwa [← toJson_eq, updateAll_entries] at hback

end ErrorEntry

/-! ## Executions -/

namespace Execution

/-- An execution whose parts can all be written and read back. -/
structure IsProper (e : Execution) : Prop where
  id : e.id.IsProper
  vars : (Json.object e.vars).IsProper
  logs : ∀ l ∈ e.logs, l.IsProper
  errors : ∀ r ∈ e.errors, r.IsProper
  startedAt : e.startedAt.IsProper
  endedAt : ∀ t ∈ e.endedAt, t.IsProper
  metadata : (Json.object e.metadata).IsProper

/-- An execution as it is read back. -/
def recalled (e : Execution) : Execution :=
  { e with logs := e.logs.map LogEntry.recalled }

/-- The entries of an execution, in the order in which they are written. -/
def entries (e : Execution) : List (WrittenEntry Execution) :=
  WrittenEntry.present "currentNodeId" e.currentNode .string
      (fun v e => { e with currentNode := v }) some ++
    WrittenEntry.present "endedAt" e.endedAt .instant (fun v e => { e with endedAt := v }) some ++
    [.of "errors" (.array (e.errors.map ErrorEntry.toJson)) (fun v e => { e with errors := v })
        (e.errors.map fun r => r),
      .of "funnelId" (.string e.funnelId) (fun v e => { e with funnelId := v }) e.funnelId,
      .of "id" (.identifier e.id) (fun v e => { e with id := v }) e.id,
      .of "logs" (.array (e.logs.map LogEntry.toJson)) (fun v e => { e with logs := v })
        (e.logs.map LogEntry.recalled),
      .of "metadata" (.object e.metadata) (fun v e => { e with metadata := v }) e.metadata,
      .of "startedAt" (.instant e.startedAt) (fun v e => { e with startedAt := v }) e.startedAt,
      .of "status" (.string e.status.label) (fun v e => { e with status := v }) e.status] ++
    WrittenEntry.present "triggerId" e.triggerId .string
      (fun v e => { e with triggerId := v }) some ++
    [.of "variables" (.object e.vars) (fun v e => { e with vars := v }) e.vars]

theorem toJson_eq (e : Execution) : e.toJson = .object (Layout.written e.entries) := by
  obtain ⟨id, funnelId, triggerId, status, vars, currentNode, logs, errors, startedAt, endedAt,
    metadata⟩ := e
  cases triggerId <;> cases currentNode <;> cases endedAt <;>
    simp only [toJson, entries, Json.record, Json.present, WrittenEntry.present, WrittenEntry.of,
      Layout.written, Members.ofEntries, Members.merge, Members.insert, Option.map_some,
      Option.map_none, Option.toList_some, Option.toList_none, List.nil_append, List.cons_append,
      List.append_nil, List.map_cons, List.map_nil, List.foldl_cons, List.foldl_nil,
      String.reduceLT, String.reduceEq, if_true, if_false]

theorem updateAll_entries (e : Execution) :
    Layout.updateAll e.entries layout.blank = e.recalled := by
  obtain ⟨id, funnelId, triggerId, status, vars, currentNode, logs, errors, startedAt, endedAt,
    metadata⟩ := e
  cases triggerId <;> cases currentNode <;> cases endedAt <;>
    simp [recalled, layout, Layout.updateAll, entries, WrittenEntry.present, WrittenEntry.of]

theorem takes_entries {e : Execution} (h : e.IsProper) :
    ∀ entry ∈ e.entries, layout.Takes entry := by
  simp only [entries, List.forall_mem_append, List.forall_mem_cons]
  refine ⟨⟨⟨⟨?_, ?_⟩, ?_, ?_, ?_, ?_, ?_, ?_, ?_, nofun⟩, ?_⟩, ?_, nofun⟩
  · exact Layout.takes_present rfl (Reader.readsBack_optional_text e.currentNode)
  · exact Layout.takes_present rfl fun t ht => (Instant.readsBack (h.endedAt t ht)).optional rfl
  · exact Layout.takes_defaulted rfl (.listOf fun r hr => ErrorEntry.readsBack (h.errors r hr))
  · exact Layout.takes_required rfl (Reader.readsBack_text e.funnelId)
  · exact Layout.takes_required rfl (Identifier.readsBack h.id)
  · exact Layout.takes_defaulted rfl (.listOf fun l hl => LogEntry.readsBack (h.logs l hl))
  · exact Layout.takes_defaulted rfl (Reader.readsBack_membersOf_any h.metadata)
  · exact Layout.takes_required rfl (Instant.readsBack h.startedAt)
  · exact Layout.takes_required rfl (Status.readsBack e.status)
  · exact Layout.takes_present rfl (Reader.readsBack_optional_text e.triggerId)
  · exact Layout.takes_defaulted rfl (Reader.readsBack_membersOf_any h.vars)

theorem readsBack {e : Execution} (h : e.IsProper) : layout.read.ReadsBack e.toJson e.recalled := by
  have hback := Layout.readsBack (takes_entries h) (Layout.isAscending_of_record e.toJson_eq)
    (by simp [layout, entries, Field.required, Field.defaulted, WrittenEntry.of])
  rwa [← toJson_eq, updateAll_entries] at hback

end Execution

/-- **The snapshot of an execution reads as the execution** if its value is not nested too deep to
be read, and cannot be read otherwise. -/
theorem Snapshot.read_ofExecution {e : Execution} (h : e.IsProper) :
    (Snapshot.ofExecution e).read =
      if e.toJson.nesting ≤ Source.depthLimit then .ok e.recalled
      else .error (.serialization Fault.malformed.message) := by
  have hback := Execution.readsBack h
  have htext : Execution.layout.read.ofJsonText (ofExecution e) =
      .within e.toJson.nesting e.recalled := by
    rw [Reader.ofJsonText, ofExecution, Source.scan_compact hback.proper]
    dsimp only
    rw [hback.within 0 (Nat.zero_le _), Nat.zero_add]
    exact Reads.within_bind_ok id _ _
  rw [read, htext, Reads.within]
  split <;> rfl

end Outreach
