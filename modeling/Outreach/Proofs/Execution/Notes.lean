import Outreach.Engine.Run
import Outreach.Proofs.Executor.BuiltIn

/-!
# What is noted in a log

The texts in the log of an execution are told apart by how they begin. Whatever happens to an
execution, no entry whose text begins in some way is added to its log by a change whose own text
begins differently.
-/

namespace Outreach.Execution

/-- The entries of the log whose texts begin in some way, in order. -/
def noted (e : Execution) (start : String) : List LogEntry :=
  e.logs.filter fun entry => start.toList.isPrefixOf entry.message.toList

variable (e : Execution) {start : String} (moment : Moment) (n : Node) (fault : EngineFault)

theorem noted_eq_nil_iff :
    e.noted start = [] ↔ ∀ entry ∈ e.logs, ¬ start.toList <+: entry.message.toList := by
  simp only [noted, List.filter_eq_nil_iff, List.isPrefixOf_iff_prefix]

theorem noted_log {message : String} (h : Text.Apart start message) (level : Level)
    (node : Option String) (data : Option Json) :
    (e.log moment level node message data).noted start = e.noted start := by
  have hother : ¬ start.toList.isPrefixOf message.toList = true :=
    fun hprefix => h.1 (List.isPrefixOf_iff_prefix.mp hprefix)
  simp [noted, log, hother]

theorem noted_log_of_prefix {message : String} (h : start.toList <+: message.toList) (level : Level)
    (node : Option String) (data : Option Json) :
    (e.log moment level node message data).noted start =
      e.noted start ++
        [⟨moment.fresh (e.entryCount + 1), moment.now, level, node, message, data⟩] := by
  have hprefix : start.toList.isPrefixOf message.toList = true := List.isPrefixOf_iff_prefix.mpr h
  simp [noted, log, hprefix]

theorem noted_move (next : Status) : (e.move moment next).noted start = e.noted start := by
  unfold move move?
  cases e.status.canMoveTo next <;> rfl

theorem noted_observe (h : Text.Apart start "execution cancelled") (cancelled : Bool) :
    (e.observe moment cancelled).noted start = e.noted start := by
  unfold observe
  split
  next => rw [noted_log _ _ h, noted_move]
  next => rfl

theorem noted_enter (h : Text.Apart start "executing node '") :
    (e.enter moment n).noted start = e.noted start := by
  rw [enter, noted_log _ _ ((h.append _).append _)]
  rfl

theorem noted_take (h : Text.Apart start "node '") (result : ActionResult) :
    (e.take moment n result).noted start = e.noted start := by
  rw [take, noted_log _ _ ((h.append _).append _)]
  rfl

theorem noted_noteRetry (h : Text.Apart start "retrying node (retry ") (limits : Limits) :
    (e.noteRetry moment limits n fault).noted start = e.noted start :=
  e.noted_log moment (((((h.append _).append _).append _).append _).append _) _ _ _

theorem noted_giveUp (h : Text.Apart start "node failed: ") :
    (e.giveUp moment n fault).noted start = e.noted start :=
  e.noted_log moment (h.append _) _ _ _

theorem noted_stop (h : Text.Apart start "execution completed: node stopped the flow") :
    (e.stop moment n).noted start = e.noted start := by
  unfold stop
  split
  next => rw [noted_log _ _ h, noted_move]
  next => rfl

theorem noted_complete (h : Text.Apart start "execution completed") :
    (e.complete moment).noted start = e.noted start := by
  unfold complete
  split
  next => rw [noted_log _ _ h, noted_move]
  next => rfl

theorem noted_abort (h : Text.Apart start "execution failed: ") :
    (e.abort moment fault).noted start = e.noted start := by
  rw [abort, noted_log _ _ (h.append _)]
  exact e.noted_move moment .failed

theorem noted_ofCall (h : Text.Apart start "execution of funnel '") (call : Call) :
    (ofCall moment call).noted start = [] := by
  rw [ofCall, noted_log _ _ ((h.append _).append _), noted_move]
  rfl

theorem noted_noteSkipped (h : Text.Apart start "connection '") (source connection : String) :
    (e.noteSkipped moment source connection).noted start = e.noted start :=
  e.noted_log moment ((h.append _).append _) _ _ _

theorem noted_noteMissing (h : Text.Apart start "next node '") (source target : String) :
    (e.noteMissing moment source target).noted start = e.noted start :=
  e.noted_log moment ((h.append _).append _) _ _ _

end Outreach.Execution
