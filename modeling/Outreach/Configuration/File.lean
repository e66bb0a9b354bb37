import Outreach.Configuration.Environment
import Outreach.Toml.Document

/-!
# The configuration of a program

A configuration is read from a file, if one is named, and then overridden by the environment. A file
that is named is never passed over.
-/

namespace Outreach

/-- Why a configuration cannot be loaded. -/
inductive ConfigurationFault where
  | unreachable (path reason : String)
  | malformed (path : String) (fault : Fault)
  deriving DecidableEq, Repr

namespace ConfigurationFault

/-- The text of a fault. -/
def message : ConfigurationFault → String
  | unreachable path reason => "failed to read config file '" ++ path ++ "': " ++ reason
  | malformed path _ => "failed to parse config file '" ++ path ++ "'"

/-- What lies behind a fault. -/
def causes : ConfigurationFault → List String
  | unreachable _ _ => []
  | malformed _ fault => [fault.message]

end ConfigurationFault

namespace Configuration

/-- Reads a configuration from a text. -/
def ofTomlText (text : String) : Reads Configuration :=
  layout.read.ofTomlText text

/-- The configuration of a file, or the standard one without a file. -/
def ofFile? : Option (String × Except String String) → Except ConfigurationFault Configuration
  | none => .ok .standard
  | some (path, contents) => do
    let text ← contents.mapError (ConfigurationFault.unreachable path)
    (ofTomlText text).mapError (ConfigurationFault.malformed path)

/-- Loads a configuration. -/
def load (file : Option (String × Except String String)) (env : Environment) :
    Except ConfigurationFault Configuration :=
  (ofFile? file).map fun c => c.override env

end Configuration

end Outreach
