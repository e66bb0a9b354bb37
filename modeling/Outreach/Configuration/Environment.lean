import Outreach.Configuration.Basic
import Outreach.Text.Blank

/-!
# Settings from the environment

Fifteen variables of the environment each set one thing. A number that cannot be read and a text
that is blank leave the setting as it is.
-/

namespace Outreach

/-- The variables of an environment. -/
abbrev Environment := String → Option String

namespace Environment

/-- The number below `2 ^ bits` that a variable holds, white space around it not counted. -/
def number? (env : Environment) (bits : Nat) (name : String) : Option Nat :=
  (env name).bind fun raw => Numeral.below? (Nat.pow 2 bits) (Text.trim raw.toList)

/-- The text that a variable holds, if it is not blank. -/
def text? (env : Environment) (name : String) : Option String :=
  (env name).filter fun raw => !Text.isBlankText raw

end Environment

namespace Limits

/-- Limits with what the environment says about them. -/
def override (l : Limits) (env : Environment) : Limits where
  concurrent := (env.number? 64 "MAX_CONCURRENT_EXECUTIONS").getD l.concurrent
  timeout := (env.number? 64 "EXECUTION_TIMEOUT").getD l.timeout
  retries := (env.number? 32 "MAX_RETRY_ATTEMPTS").getD l.retries
  retryDelay := (env.number? 64 "RETRY_DELAY").getD l.retryDelay
  nodes := (env.number? 64 "MAX_FLOW_NODES").getD l.nodes
  depth := (env.number? 64 "MAX_FLOW_DEPTH").getD l.depth
  keepFor := (env.number? 64 "FLOW_CACHE_TTL").getD l.keepFor

end Limits

namespace ServiceAddresses

/-- Addresses with what the environment says about them. -/
def override (a : ServiceAddresses) (env : Environment) : ServiceAddresses where
  whatsappUrl := (env.text? "WHATSAPP_SERVICE_URL").or a.whatsappUrl
  whatsappToken := (env.text? "WHATSAPP_API_TOKEN").or a.whatsappToken
  timeout := (env.number? 64 "DELIVERY_TIMEOUT").getD a.timeout
  completionUrl := (env.text? "AI_API_URL").or a.completionUrl
  completionKey := (env.text? "AI_API_KEY").or a.completionKey
  completionModel := (env.text? "AI_MODEL").getD a.completionModel
  contactsUrl := (env.text? "CONTACT_SERVICE_URL").or a.contactsUrl
  analyticsUrl := (env.text? "ANALYTICS_SERVICE_URL").or a.analyticsUrl

end ServiceAddresses

namespace Configuration

/-- A configuration with what the environment says about it. -/
def override (c : Configuration) (env : Environment) : Configuration :=
  ⟨c.limits.override env, c.addresses.override env⟩

end Configuration

end Outreach
