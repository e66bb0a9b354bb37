import Outreach.Funnel.Basic
import Outreach.Source.JsonText
import Outreach.Text.Split
import Outreach.Yaml.Document

/-!
# Funnels in files

A funnel is written in JSON or in YAML; the name of its file says which.
-/

namespace Outreach

/-- Why a funnel cannot be loaded. -/
inductive LoadFault where
  | malformed (fault : Fault)
  | unsupported (extension : String)
  | unreachable (reason : String)
  deriving DecidableEq, Repr

namespace LoadFault

/-- The text of a fault. -/
def message : LoadFault → String
  | malformed fault => "parse error: " ++ fault.message
  | unsupported extension =>
    "unsupported funnel file extension '" ++ extension ++ "' (expected .json, .yaml or .yml)"
  | unreachable reason => "I/O error: " ++ reason

end LoadFault

namespace Text

/-- What a path ends in. -/
def fileName (path : String) : List Char :=
  let trimmed := (path.toList.reverse.dropWhile (· = '/'))
  (trimmed.takeWhile (· ≠ '/')).reverse

/-- What follows the last point of the name of a file in lower case; nothing where the name has no
point behind its first character. -/
def extension (path : String) : String :=
  let name := fileName path
  let reversed := name.reverse
  let tail := reversed.takeWhile (· ≠ '.')
  if name = ['.', '.'] ∨ name.length ≤ tail.length + 1 then ""
  else lower (String.ofList tail.reverse)

end Text

namespace Funnel

/-- Reads a funnel from a JSON text. -/
def ofJsonText (text : String) : Reads Funnel :=
  layout.read.ofJsonText text

/-- Reads a funnel from a YAML text. -/
def ofYamlText (text : String) : Reads Funnel :=
  layout.read.ofYamlText text

/-- Loads the funnel of a file. A file of another format is not even opened. -/
def load (path : String) (contents : Except String String) : Except LoadFault Funnel :=
  let parse (read : String → Reads Funnel) : Except LoadFault Funnel := do
    let text ← contents.mapError LoadFault.unreachable
    (read text).mapError LoadFault.malformed
  match Text.extension path with
  | "json" => parse ofJsonText
  | "yaml" | "yml" => parse ofYamlText
  | other => .error (.unsupported other)

end Funnel

end Outreach
