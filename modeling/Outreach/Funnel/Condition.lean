import Outreach.Source.Record

/-!
# Conditions

A condition compares the value at a path with an operand. The operand may be missing, which is not
the same as an operand that is null.
-/

namespace Outreach

/-- What a condition asks of a value. -/
inductive Operator where
  | equals
  | notEquals
  | greaterThan
  | lessThan
  | contains
  | exists
  | unknown (label : String)
  deriving DecidableEq, Repr

namespace Operator

/-- The operators that have a meaning. -/
def known : List Operator :=
  [equals, notEquals, greaterThan, lessThan, contains, .exists]

/-- The label of an operator. -/
def label : Operator → String
  | equals => "equals"
  | notEquals => "not_equals"
  | greaterThan => "greater_than"
  | lessThan => "less_than"
  | contains => "contains"
  | .exists => "exists"
  | unknown label => label

/-- The operator that a label names; a label without a meaning is kept. -/
def ofLabel (label : String) : Operator :=
  (known.find? fun o => o.label == label).getD (unknown label)

/-- Whether an operator has a meaning. -/
def isKnown : Operator → Bool
  | unknown _ => false
  | _ => true

end Operator

/-- A question about the variables of a run. -/
structure Condition where
  field : String
  operator : Operator
  value : Option Json

namespace Condition

/-- How a condition is read. An operand that is null is an operand. -/
def layout : Layout Condition where
  name := "Condition"
  fields := [
    .required "field" .text fun v c => { c with field := v },
    .required "operator" .text fun v c => { c with operator := .ofLabel v },
    .defaulted "value" .any fun v c => { c with value := some v }]
  blank := ⟨"", .unknown "", none⟩

/-- A condition as a value; a missing operand is left out. -/
def toJson (c : Condition) : Json :=
  .record ([("field", .string c.field), ("operator", .string c.operator.label)] ++
    (c.value.map fun v => ("value", v)).toList)

end Condition

end Outreach
