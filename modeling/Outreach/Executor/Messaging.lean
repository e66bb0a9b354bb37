import Outreach.Executor.Basic
import Outreach.Variables.Template

/-!
# Nodes that send messages

One executor serves every label for messages. The settings name the channel; without one the label
implies it, and the plain label means WhatsApp.
-/

namespace Outreach

/-- The settings of a node that sends a message. -/
structure MessageSettings where
  channel : Option Channel
  recipient : Option String
  message : Option String
  template : Option String
  subject : Option String

namespace MessageSettings

/-- How the settings are read. -/
def layout : Layout MessageSettings where
  name := "SendMessageConfig"
  fields := [
    .defaulted "channel" (.optional (.labelled Channel.all Channel.label)) fun v s =>
      { s with channel := v },
    .defaulted "recipient" (.optional .text) fun v s => { s with recipient := v },
    .defaulted "message" (.optional .text) fun v s => { s with message := v },
    .defaulted "template" (.optional .text) fun v s => { s with template := v },
    .defaulted "subject" (.optional .text) fun v s => { s with subject := v }]
  blank := ⟨none, none, none, none, none⟩

/-- The settings as a value. -/
def toJson (s : MessageSettings) : Json :=
  .record [("channel", .textOrNull (s.channel.map Channel.label)),
    ("recipient", .textOrNull s.recipient), ("message", .textOrNull s.message),
    ("template", .textOrNull s.template), ("subject", .textOrNull s.subject)]

/-- The text to be sent: the message, or else the template. -/
def body? (s : MessageSettings) : Option String :=
  s.message.or s.template

/-- The channel of a node of a type. -/
def channelFor (s : MessageSettings) (type : NodeType) : Channel :=
  s.channel.getD (match type with
    | .sendEmail => .email
    | .sendSms => .sms
    | _ => .whatsapp)

end MessageSettings

namespace Executor.Messaging

/-- What a message that was sent leaves behind. -/
def sent (message : Message) (now : Instant) (receipt : Receipt) : ActionResult :=
  (ActionResult.proceed.withVariable "last_message" (.record [
    ("channel", .string message.channel.label), ("to", .string message.recipient),
    ("message", .string message.body), ("messageId", .textOrNull receipt.messageId),
    ("sentAt", .string now.renderNumeric)])).withData receipt.toJson

/-- Hands a message to its sender. -/
def send (message : Message) : Task :=
  .ask (.send message) fun now reply => .done <|
    match reply with
    | .ok receipt => sent message now receipt
    | .error fault => .failure (message.channel.label ++ " delivery failed: " ++ fault.message)

/-- Sends the message of a node, if it has a text, a recipient and a sender. -/
def perform (channels : List Channel) (_ : Instant) (node : Node) (e : Execution) : Task :=
  withSettings MessageSettings.layout node fun settings =>
    match settings.body? with
    | none => .done (.failure "message or template is required")
    | some body =>
      let recipient := Template.interpolate (settings.recipient.getD "") e.vars
      let channel := settings.channelFor node.type
      if Text.isBlankText recipient then .done (.failure "recipient is required")
      else if channels.contains channel then
        send { channel, recipient, body := Template.interpolate body e.vars,
               subject := settings.subject.map fun s => Template.interpolate s e.vars }
      else .done (.failure ("no sender configured for channel '" ++ channel.label ++ "'"))

/-- Whether a text is given and is not empty. -/
def isGiven (text : Option String) : Bool :=
  text.any fun s => !s.isEmpty

/-- What is wrong with settings. -/
def check (channels : List Channel) (settings : MessageSettings) : Verdict :=
  let start := match settings.channel with
    | none => Verdict.valid.warning "no channel set; whatsapp will be used"
    | some channel => Verdict.valid.warningIf (!channels.contains channel)
        ("no sender is configured for channel '" ++ channel.label ++ "'")
  (start.errorIf (settings.recipient.all Text.isBlankText) "recipient is required").errorIf
    (!isGiven settings.message && !isGiven settings.template) "message or template is required"

end Executor.Messaging

/-- Sends messages over the channels that have a sender. -/
def Executor.messaging (channels : List Channel) : Executor where
  family := "messaging"
  isExempt := false
  examine := examineSettings MessageSettings.layout (Messaging.check channels)
  perform := Messaging.perform channels

end Outreach
