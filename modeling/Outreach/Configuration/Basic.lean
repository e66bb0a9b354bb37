import Outreach.Engine.Limits
import Outreach.Execution.Codec

/-!
# Configuration

The limits of the engine, and where the services are to be found. A service without an address is
not called; what would be sent to it is only noted.
-/

namespace Outreach

/-- Where the services are. -/
structure ServiceAddresses where
  whatsappUrl : Option String
  whatsappToken : Option String
  timeout : Nat
  completionUrl : Option String
  completionKey : Option String
  completionModel : String
  contactsUrl : Option String
  analyticsUrl : Option String
  deriving DecidableEq, Repr

namespace ServiceAddresses

/-- The addresses where nothing is said about them. -/
def standard : ServiceAddresses :=
  ⟨none, none, 30000, none, none, "gpt-4o-mini", none, none⟩

/-- How addresses are read. -/
def layout : Layout ServiceAddresses where
  name := "DeliveryConfig"
  fields := [
    .defaulted "whatsapp_service_url" (.optional .text) fun v a => { a with whatsappUrl := v },
    .defaulted "whatsapp_api_token" (.optional .text) fun v a => { a with whatsappToken := v },
    .defaulted "delivery_timeout_ms" .nat64 fun v a => { a with timeout := v },
    .defaulted "ai_api_url" (.optional .text) fun v a => { a with completionUrl := v },
    .defaulted "ai_api_key" (.optional .text) fun v a => { a with completionKey := v },
    .defaulted "ai_model" .text fun v a => { a with completionModel := v },
    .defaulted "contact_service_url" (.optional .text) fun v a => { a with contactsUrl := v },
    .defaulted "analytics_service_url" (.optional .text) fun v a => { a with analyticsUrl := v }]
  blank := standard

/-- Addresses as a value. -/
def toJson (a : ServiceAddresses) : Json :=
  .record ([("delivery_timeout_ms", .nat a.timeout), ("ai_model", .string a.completionModel)] ++
    Json.present "whatsapp_service_url" (a.whatsappUrl.map .string) ++
    Json.present "whatsapp_api_token" (a.whatsappToken.map .string) ++
    Json.present "ai_api_url" (a.completionUrl.map .string) ++
    Json.present "ai_api_key" (a.completionKey.map .string) ++
    Json.present "contact_service_url" (a.contactsUrl.map .string) ++
    Json.present "analytics_service_url" (a.analyticsUrl.map .string))

end ServiceAddresses

/-- A configuration. -/
structure Configuration where
  limits : Limits
  addresses : ServiceAddresses
  deriving DecidableEq, Repr

namespace Configuration

/-- The configuration where nothing is said about it. -/
def standard : Configuration :=
  ⟨.standard, .standard⟩

/-- How a configuration is read. -/
def layout : Layout Configuration where
  name := "FunnelConfig"
  fields := [
    .defaulted "engine" Limits.layout.read fun v c => { c with limits := v },
    .defaulted "delivery" ServiceAddresses.layout.read fun v c => { c with addresses := v }]
  blank := standard

/-- A configuration as a value. -/
def toJson (c : Configuration) : Json :=
  .record [("engine", c.limits.toJson), ("delivery", c.addresses.toJson)]

end Configuration

end Outreach
