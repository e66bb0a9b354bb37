import Outreach.Funnel.Basic

/-!
# Reading the settings of a node

The settings of a node are free-form until its type says what they should be. Settings of null read
as settings that leave everything out.
-/

namespace Outreach

/-- Settings that are not what the type of their node asks for. -/
structure SettingsFault where
  node : String
  type : NodeType
  reason : Fault

namespace SettingsFault

/-- How the text of a fault begins. -/
def start : String := "invalid config for node"

/-- The text of a fault. -/
def message (f : SettingsFault) : String :=
  start ++ " '" ++ f.node ++ "' (" ++ f.type.label ++ "): " ++ f.reason.message

end SettingsFault

namespace Layout

variable {α : Type}

/-- Reads settings. -/
def ofSettings (layout : Layout α) (settings : Json) : Reads α :=
  layout.read .value (Source.ofJson (if settings.isNull then .object [] else settings))

end Layout

namespace Node

/-- Reads the settings of a node. -/
def settingsAs {α : Type} (n : Node) (layout : Layout α) : Except SettingsFault α :=
  (layout.ofSettings n.settings).mapError fun reason => ⟨n.id, n.type, reason⟩

end Node

end Outreach
