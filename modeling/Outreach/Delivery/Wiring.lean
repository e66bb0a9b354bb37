import Outreach.Configuration.Basic
import Outreach.Delivery.Remote

/-!
# The services of a configuration

A service with an address is reached there. Without one its messages, updates and events are noted
and reported as done; texts cannot be written without a writer.
-/

namespace Outreach

/-- What a message that is only noted is given for an identifier. -/
def noted (id : Identifier) : Receipt :=
  ⟨some ("log-" ++ id.render), none⟩

namespace ServiceAddresses

/-- How the services are reached over a network. -/
def link (a : ServiceAddresses) (network : Network) : Link :=
  ⟨network, a.timeout⟩

/-- What the services reply to a request; `id` is an identifier that nothing else has. Delegated
nodes have no service. -/
def reply (a : ServiceAddresses) (network : Network) (id : Identifier) :
    (request : Request) → Reply request
  | .send message =>
    match message.channel, a.whatsappUrl with
    | .whatsapp, some base => Remote.send (a.link network) base a.whatsappToken message
    | _, _ => .ok (noted id)
  | .dispatch call => Remote.dispatch (a.link network) call
  | .complete completion =>
    match a.completionUrl with
    | some base =>
      Remote.complete (a.link network) base a.completionKey a.completionModel completion
    | none => .error (.notConfigured "AI provider (set AI_API_URL)")
  | .updateContact contact fields =>
    match a.contactsUrl with
    | some base => Remote.updateContact (a.link network) base contact fields
    | none => .ok (Remote.written contact fields)
  | .track event =>
    match a.analyticsUrl with
    | some base => Remote.track (a.link network) base event
    | none => .ok ()
  | .delegate _ _ => ⟨.proceed, none, false⟩

end ServiceAddresses

end Outreach
