import Outreach.Executor.Basic
import Outreach.Funnel.Evaluation
import Outreach.Variables.Template

/-!
# Nodes that steer a run

Where a run starts, which way it takes, how long it waits and how it ends.
-/

namespace Outreach

/-- The settings of a node that chooses a way. -/
structure BranchSettings where
  condition : Condition
  whenTrue : Option String
  whenFalse : Option String

namespace BranchSettings

/-- How the settings are read. -/
def layout : Layout BranchSettings where
  name := "ConditionNodeConfig"
  fields := [
    .required "condition" Condition.layout.read fun v s => { s with condition := v },
    .defaulted "trueNodeId" (.optional .text) fun v s => { s with whenTrue := v },
    .defaulted "falseNodeId" (.optional .text) fun v s => { s with whenFalse := v }]
  blank := ⟨Condition.layout.blank, none, none⟩

/-- The settings as a value. -/
def toJson (s : BranchSettings) : Json :=
  .record [("condition", s.condition.toJson), ("trueNodeId", .textOrNull s.whenTrue),
    ("falseNodeId", .textOrNull s.whenFalse)]

end BranchSettings

/-- A unit of time to wait. -/
inductive DelayUnit where
  | milliseconds
  | seconds
  | minutes
  | hours
  | days
  deriving DecidableEq, Repr

namespace DelayUnit

/-- Every unit, from short to long. -/
def all : List DelayUnit :=
  [milliseconds, seconds, minutes, hours, days]

/-- The written form. -/
def label : DelayUnit → String
  | milliseconds => "milliseconds"
  | seconds => "seconds"
  | minutes => "minutes"
  | hours => "hours"
  | days => "days"

/-- The length of a unit in milliseconds. -/
def length : DelayUnit → Nat
  | milliseconds => 1
  | seconds => 1000
  | minutes => 60000
  | hours => 3600000
  | days => 86400000

end DelayUnit

/-- The settings of a node that waits. -/
structure DelaySettings where
  duration : Nat
  unit : DelayUnit

namespace DelaySettings

/-- How the settings are read. -/
def layout : Layout DelaySettings where
  name := "DelayConfig"
  fields := [
    .required "duration" .nat64 fun v s => { s with duration := v },
    .defaulted "unit" (.labelled DelayUnit.all DelayUnit.label) fun v s => { s with unit := v }]
  blank := ⟨0, .seconds⟩

/-- The settings as a value. -/
def toJson (s : DelaySettings) : Json :=
  .record [("duration", .nat s.duration), ("unit", .string s.unit.label)]

/-- The time to wait in milliseconds, at most what 64 bits hold. -/
def milliseconds (s : DelaySettings) : Nat :=
  min (s.duration * s.unit.length) (Nat.pow 2 64 - 1)

end DelaySettings

/-- The settings of a node that ends a run. -/
structure EndSettings where
  saveData : Members Json

namespace EndSettings

/-- How the settings are read. -/
def layout : Layout EndSettings where
  name := "EndConfig"
  fields := [.defaulted "saveData" (.membersOf .any) fun v s => { s with saveData := v }]
  blank := ⟨[]⟩

/-- The settings as a value. -/
def toJson (s : EndSettings) : Json :=
  .record [("saveData", .object s.saveData)]

end EndSettings

namespace Executor

namespace Trigger

/-- Notes when the run was triggered. -/
def perform (now : Instant) (_ : Node) (e : Execution) : Task :=
  .done ((ActionResult.proceed.withVariable "triggered_at" (.string now.renderNumeric)).withData
    (.record [("triggerId", .textOrNull e.triggerId)]))

/-- The settings of a trigger are an object or nothing. -/
def examine (settings : Json) : Verdict :=
  Verdict.valid.errorIf (match settings with
    | .object _ | .null => false
    | _ => true) "trigger config must be an object"

end Trigger

namespace Branch

/-- Evaluates a condition, notes the answer and chooses the way. What cannot be evaluated is
answered with no. -/
def choose (settings : BranchSettings) (vars : Variables) : ActionResult :=
  let (start, answer) := match settings.condition.evaluate vars with
    | .ok answer => (ActionResult.proceed, answer)
    | .error fault =>
      (ActionResult.proceed.withMetadata "conditionError" (.string fault.message), false)
  let result := start.withVariable "condition_result" (.bool answer)
  match (if answer then settings.whenTrue else settings.whenFalse) with
  | some node => result.withNextNode node
  | none => result

/-- Chooses the way at a node. -/
def perform (_ : Instant) (node : Node) (e : Execution) : Task :=
  withSettings BranchSettings.layout node fun settings => .done (choose settings e.vars)

/-- What is wrong with settings. -/
def check (settings : BranchSettings) : Verdict :=
  (Verdict.valid.errorIf (Text.isBlankText settings.condition.field)
    "condition field is required").errorIf (!settings.condition.operator.isKnown)
    ("unknown condition operator '" ++ settings.condition.operator.label ++ "'")

end Branch

namespace Delay

/-- Waits. -/
def perform (_ : Instant) (node : Node) (_ : Execution) : Task :=
  withSettings DelaySettings.layout node fun settings =>
    .sleep settings.milliseconds fun _ =>
      .done (ActionResult.proceed.withData (.record [("waitedMs", .nat settings.milliseconds)]))

/-- What is wrong with settings. -/
def check (settings : DelaySettings) : Verdict :=
  Verdict.valid.warningIf (settings.duration == 0) "duration is 0; the node will not wait"

end Delay

namespace End

/-- Saves the last variables and ends the run. -/
def perform (_ : Instant) (node : Node) (e : Execution) : Task :=
  withSettings EndSettings.layout node fun settings =>
    .done (ActionResult.finish.withVariables
      (settings.saveData.mapValues (Template.interpolateValue e.vars)))

end End

/-- Starts a run. -/
def trigger : Executor where
  family := "trigger"
  isExempt := false
  examine := Trigger.examine
  perform := Trigger.perform

/-- Chooses a way. -/
def branch : Executor where
  family := "branch"
  isExempt := false
  examine := examineSettings BranchSettings.layout Branch.check
  perform := Branch.perform

/-- Waits; the time it takes is not charged to the run. -/
def delay : Executor where
  family := "delay"
  isExempt := true
  examine := examineSettings DelaySettings.layout Delay.check
  perform := Delay.perform

/-- Ends a run. -/
def finish : Executor where
  family := "end"
  isExempt := false
  examine := examineSettings EndSettings.layout fun _ => Verdict.valid
  perform := End.perform

end Executor

end Outreach
