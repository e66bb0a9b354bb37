import Outreach.Funnel.Condition
import Outreach.Variables.Coercion

/-!
# What conditions say

A condition on a blank path or with an operator without a meaning cannot be evaluated; every other
condition holds or does not hold.
-/

namespace Outreach

/-- Why a condition cannot be evaluated. -/
inductive ConditionFault where
  | emptyField
  | unknownOperator (label : String)
  deriving DecidableEq, Repr

namespace ConditionFault

/-- The text of a fault. -/
def message : ConditionFault → String
  | emptyField => "condition field is empty"
  | unknownOperator label => "unknown condition operator '" ++ label ++ "'"

end ConditionFault

namespace Operator

/-- Whether an operator finds what it asks for in two operands. A comparison with what is not a
number never holds. -/
def holds : Operator → Option Json → Option Json → Except ConditionFault Bool
  | equals, left, right => .ok (Coercion.same left right)
  | notEquals, left, right => .ok (!Coercion.same left right)
  | greaterThan, left, right =>
    .ok ((Coercion.operandNumber right).less (Coercion.operandNumber left))
  | lessThan, left, right => .ok ((Coercion.operandNumber left).less (Coercion.operandNumber right))
  | contains, left, right =>
    .ok (Text.occursIn (Coercion.operandText right).toList (Coercion.operandText left).toList)
  | .exists, left, _ =>
    .ok (match left with
      | none | some .null => false
      | some _ => true)
  | unknown label, _, _ => .error (.unknownOperator label)

end Operator

namespace Condition

/-- Whether a condition holds of variables. -/
def evaluate (c : Condition) (vars : Variables) : Except ConditionFault Bool :=
  if Text.isBlankText c.field then .error .emptyField
  else c.operator.holds (vars.resolve? c.field) c.value

end Condition

end Outreach
