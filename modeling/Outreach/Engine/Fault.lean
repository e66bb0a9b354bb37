import Outreach.Engine.Limits
import Outreach.Execution.Identifier
import Outreach.Funnel.NodeType

/-!
# What ends a run early

Only a failure that an executor reports may be different at the next attempt; everything else would
fail again.
-/

namespace Outreach

/-- Why a node or a run fails. -/
inductive EngineFault where
  | noEntry (funnelId : String)
  | noExecutor (node : String) (type : NodeType)
  | nodeFailed (node reason : String)
  | timeout (limit : Nat)
  | alreadyActive (id : Identifier)
  deriving DecidableEq, Repr

namespace EngineFault

/-- The text of a fault. -/
def message : EngineFault → String
  | noEntry funnelId => "funnel '" ++ funnelId ++ "' has no entry node"
  | noExecutor node type =>
    "no executor registered for node type '" ++ type.label ++ "' (node '" ++ node ++ "')"
  | nodeFailed node reason => "node '" ++ node ++ "' failed: " ++ reason
  | timeout limit => "execution timed out after " ++ Numeral.text limit ++ " ms"
  | alreadyActive id => "execution " ++ id.render ++ " is already active"

/-- Whether another attempt may turn out differently. -/
def isRetryable : EngineFault → Bool
  | nodeFailed _ _ => true
  | _ => false

end EngineFault

namespace Limits

/-- Whether a node is tried again after a fault, when so many errors are recorded against it, this
one included. -/
def allowsRetry (limits : Limits) (fault : EngineFault) (recorded : Nat) : Bool :=
  fault.isRetryable && recorded ≤ limits.retries

end Limits

end Outreach
