import Outreach.Execution.Codec
import Outreach.Execution.Result
import Outreach.Funnel.Basic

/-!
# Services

The services that nodes call upon: senders of messages, HTTP endpoints, writers of texts, the store
of contacts and the record of events. A `Request` says what is asked of them, `Reply` what comes
back for each kind of request.
-/

namespace Outreach

/-- The way a message takes. -/
inductive Channel where
  | whatsapp
  | email
  | sms
  deriving DecidableEq, Repr

namespace Channel

/-- Every channel. -/
def all : List Channel :=
  [whatsapp, email, sms]

/-- The written form. -/
def label : Channel → String
  | whatsapp => "whatsapp"
  | email => "email"
  | sms => "sms"

end Channel

/-- Why a service did not do what it was asked. -/
inductive DeliveryFault where
  | notConfigured (what : String)
  | transport (reason : String)
  | timeout
  | status (code : Nat) (body : String)
  | invalidResponse (reason : String)
  deriving DecidableEq, Repr

namespace DeliveryFault

/-- The text of a fault. -/
def message : DeliveryFault → String
  | notConfigured what => what ++ " is not configured"
  | transport reason => "request failed: " ++ reason
  | timeout => "request timed out"
  | status code body => "service returned HTTP " ++ Numeral.text code ++ ": " ++ body
  | invalidResponse reason => "invalid response: " ++ reason

end DeliveryFault

/-- A message ready to be sent. -/
structure Message where
  channel : Channel
  recipient : String
  body : String
  subject : Option String

namespace Message

/-- A message as a value. -/
def toJson (m : Message) : Json :=
  .record ([("channel", .string m.channel.label), ("to", .string m.recipient),
    ("message", .string m.body)] ++ Json.present "subject" (m.subject.map .string))

end Message

/-- What a sender says about a message that it took. -/
structure Receipt where
  messageId : Option String
  response : Option Json

namespace Receipt

/-- A receipt as a value. -/
def toJson (r : Receipt) : Json :=
  .record (Json.present "message_id" (r.messageId.map .string) ++ Json.present "response" r.response)

end Receipt

/-- An HTTP request. -/
structure HttpCall where
  method : String
  url : String
  headers : Members String
  body : Option Json
  timeout : Option Nat

/-- An HTTP response. -/
structure HttpReply where
  status : Nat
  body : Json

namespace HttpReply

/-- Whether the status says that the request worked. -/
def isSuccess (r : HttpReply) : Bool :=
  200 ≤ r.status && r.status < 300

end HttpReply

/-- A text to be written. -/
structure Completion where
  prompt : String
  systemPrompt : Option String
  model : Option String
  temperature : Option Double
  maxTokens : Option Nat

/-- A text that was written. -/
structure CompletionReply where
  content : String
  model : String
  usage : Option Json

/-- Something that happened in a run and is to be counted. -/
structure Event where
  name : String
  properties : Members Json
  executionId : Identifier
  funnelId : String
  timestamp : Instant

namespace Event

/-- How an event is read. -/
def layout : Layout Event where
  name := "AnalyticsEvent"
  fields := [
    .required "event" .text fun v e => { e with name := v },
    .required "properties" (.membersOf .any) fun v e => { e with properties := v },
    .required "executionId" .identifier fun v e => { e with executionId := v },
    .required "funnelId" .text fun v e => { e with funnelId := v },
    .required "timestamp" .instant fun v e => { e with timestamp := v }]
  blank := ⟨"", [], default, "", default⟩

/-- An event as a value. -/
def toJson (e : Event) : Json :=
  .record [("event", .string e.name), ("properties", .object e.properties),
    ("executionId", .identifier e.executionId), ("funnelId", .string e.funnelId),
    ("timestamp", .instant e.timestamp)]

end Event

/-- What is asked of the services. -/
inductive Request where
  | send (message : Message)
  | dispatch (call : HttpCall)
  | complete (completion : Completion)
  | updateContact (contact : String) (fields : Members Json)
  | track (event : Event)
  /-- A node whose type was given its meaning when the engine was set up. -/
  | delegate (label : String) (node : Node)

/-- What is to be done for a node that was delegated. -/
structure Errand where
  result : ActionResult
  /-- A variable that goes up by one. -/
  counter : Option String
  /-- Whether the run asks to be cancelled. -/
  cancels : Bool

/-- What comes back for a request. -/
abbrev Reply : Request → Type
  | .send _ => Except DeliveryFault Receipt
  | .dispatch _ => Except DeliveryFault HttpReply
  | .complete _ => Except DeliveryFault CompletionReply
  | .updateContact _ _ => Except DeliveryFault Json
  | .track _ => Except DeliveryFault Unit
  | .delegate _ _ => Errand

end Outreach
