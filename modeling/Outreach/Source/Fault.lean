import Outreach.Source.Basic
import Outreach.Number.Numeral

/-!
# What can be wrong with a source

A fault is either in the form of a text, and then nothing more is said about it, or in the data: a
value of the wrong kind, out of range, missing, given twice, or a list of the wrong length.
-/

namespace Outreach

/-- A fault in the data of a source. -/
inductive Misfit where
  | missingField (name : String)
  | duplicateField (name : String)
  | wrongKind (found expected : String)
  | wrongValue (found expected : String)
  | unknownVariant (name : String) (known : List String)
  | wrongLength (length : Nat) (expected : String)
  | badIdentifier (reason : String)
  | badTimestamp (reason : String)
  deriving DecidableEq, Repr

/-- Why a source could not be read. -/
inductive Fault where
  | malformed
  | misfit (cause : Misfit)
  deriving DecidableEq, Repr

namespace Misfit

/-- A name in backticks. -/
def ticked (name : String) : String :=
  "`" ++ name ++ "`"

/-- The variants that a word might have been. -/
def alternatives : List String → String
  | [] => "there are no variants"
  | [one] => "expected " ++ ticked one
  | [one, two] => "expected " ++ ticked one ++ " or " ++ ticked two
  | many => "expected one of " ++ String.intercalate ", " (many.map ticked)

/-- The text of a misfit. -/
def message : Misfit → String
  | .missingField name => "missing field " ++ ticked name
  | .duplicateField name => "duplicate field " ++ ticked name
  | .wrongKind found expected => "invalid type: " ++ found ++ ", expected " ++ expected
  | .wrongValue found expected => "invalid value: " ++ found ++ ", expected " ++ expected
  | .unknownVariant name known => "unknown variant " ++ ticked name ++ ", " ++ alternatives known
  | .wrongLength length expected =>
    "invalid length " ++ Numeral.text length ++ ", expected " ++ expected
  | .badIdentifier reason => "UUID parsing failed: " ++ reason
  | .badTimestamp reason => reason

end Misfit

/-- The result of reading a source. -/
abbrev Reads (α : Type) := Except Fault α

namespace Fault

/-- The text of a fault. -/
def message : Fault → String
  | malformed => "malformed"
  | misfit cause => cause.message

/-- A reading that ends in a misfit. -/
def raise {α : Type} (cause : Misfit) : Reads α :=
  .error (.misfit cause)

end Fault

end Outreach
