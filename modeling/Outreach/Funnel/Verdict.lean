import Outreach.Source.Record

/-!
# Verdicts

What an examination finds: errors, which make a thing invalid, and warnings, which do not.
-/

namespace Outreach

/-- The outcome of an examination. -/
structure Verdict where
  isValid : Bool
  errors : List String
  warnings : List String
  deriving DecidableEq, Repr

namespace Verdict

/-- Nothing found. -/
def valid : Verdict :=
  ⟨true, [], []⟩

/-- One more error. -/
def error (v : Verdict) (message : String) : Verdict :=
  { v with isValid := false, errors := v.errors ++ [message] }

/-- One more warning. -/
def warning (v : Verdict) (message : String) : Verdict :=
  { v with warnings := v.warnings ++ [message] }

/-- One more error where something is the case. -/
def errorIf (v : Verdict) (found : Bool) (message : String) : Verdict :=
  if found then v.error message else v

/-- One more warning where something is the case. -/
def warningIf (v : Verdict) (found : Bool) (message : String) : Verdict :=
  if found then v.warning message else v

/-- A message with the name of what it is about in front. -/
def within (scope message : String) : String :=
  scope ++ ": " ++ message

/-- Adds what was found in a part. -/
def absorb (v : Verdict) (scope : String) (part : Verdict) : Verdict where
  isValid := v.isValid && part.isValid && part.errors.isEmpty
  errors := v.errors ++ part.errors.map (within scope)
  warnings := v.warnings ++ part.warnings.map (within scope)

/-- How a verdict is read. -/
def layout : Layout Verdict where
  name := "ValidationResult"
  fields := [
    .required "isValid" .bool fun x v => { v with isValid := x },
    .defaulted "errors" (.listOf .text) fun x v => { v with errors := x },
    .defaulted "warnings" (.listOf .text) fun x v => { v with warnings := x }]
  blank := ⟨false, [], []⟩

/-- A verdict as a value. -/
def toJson (v : Verdict) : Json :=
  .record [("isValid", .bool v.isValid), ("errors", .array (v.errors.map .string)),
    ("warnings", .array (v.warnings.map .string))]

end Verdict

end Outreach
