import Outreach.Execution.Basic
import Outreach.Funnel.Evaluation

/-!
# Conditions during a run

A condition that cannot be evaluated counts as one that does not hold, and the run goes on with a
log entry that says why.
-/

namespace Outreach.Execution

/-- How much a condition that cannot be evaluated matters. -/
def faultLevel : ConditionFault → Level
  | .unknownOperator _ => .warn
  | .emptyField => .error

/-- Whether a condition holds of the variables of a run; what is wrong with it is logged. -/
def check (e : Execution) (moment : Moment) (c : Condition) (node : Option String) :
    Bool × Execution :=
  match c.evaluate e.vars with
  | .ok holds => (holds, e)
  | .error fault =>
    (false, e.log moment (faultLevel fault) node ("condition evaluation failed: " ++ fault.message)
      (some (.record [("field", .string c.field), ("operator", .string c.operator.label)])))

end Outreach.Execution
