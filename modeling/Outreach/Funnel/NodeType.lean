/-!
# Node types

What a node does is named by a label. Thirteen labels have a meaning of their own; any other label
is kept as it is and can be given a meaning when the engine is set up.
-/

namespace Outreach

/-- The type of a node. -/
inductive NodeType where
  | trigger
  | sendMessage
  | sendWhatsapp
  | sendEmail
  | sendSms
  | aiResponse
  | condition
  | delay
  | webhook
  | apiCall
  | updateContact
  | trackEvent
  | finish
  | custom (label : String)
  deriving DecidableEq, Repr

namespace NodeType

/-- The types with a meaning of their own, in the order in which they are listed. -/
def builtIn : List NodeType :=
  [trigger, sendMessage, sendWhatsapp, sendEmail, sendSms, aiResponse, condition, delay, webhook,
    apiCall, updateContact, trackEvent, finish]

/-- The label of a type. -/
def label : NodeType → String
  | trigger => "trigger"
  | sendMessage => "send_message"
  | sendWhatsapp => "send_whatsapp"
  | sendEmail => "send_email"
  | sendSms => "send_sms"
  | aiResponse => "ai_response"
  | condition => "condition"
  | delay => "delay"
  | webhook => "webhook"
  | apiCall => "api_call"
  | updateContact => "update_contact"
  | trackEvent => "track_event"
  | finish => "end"
  | custom label => label

/-- The type that a label names. Every text is a label; `exit` is another word for `end`. -/
def ofLabel (label : String) : NodeType :=
  if label = "exit" then finish
  else (builtIn.find? fun t => t.label == label).getD (custom label)

/-- Whether a type has a meaning of its own. -/
def isBuiltIn (t : NodeType) : Bool :=
  builtIn.contains t

end NodeType

end Outreach
