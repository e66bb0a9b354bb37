import Outreach.Executor.BuiltIn

/-!
# Scripted services

In a rehearsal the services say what a script makes them say. A script is a list of cues, one for
each request; the last cue serves all further requests, and without a cue a service does its usual
thing. A cue may also make the service take its time.
-/

namespace Outreach

/-- What a service says at a cue. -/
inductive Line (α : Type) where
  | usual
  | tells (value : α)
  | fails (fault : DeliveryFault)

/-- A cue: how long the service takes, and what it says then. -/
structure Cue (α : Type) where
  wait : Nat
  line : Line α

/-- A list of cues. -/
abbrev Script (α : Type) := List α

namespace Script

/-- The cue for a request, counted from zero. -/
def cue? {α : Type} (script : Script α) (n : Nat) : Option α :=
  script[min n (script.length - 1)]?

end Script

/-- What is to be done for a delegated node, and how long it takes. -/
structure ErrandCue where
  wait : Nat
  errand : Errand

/-- The scripts of all services. Without scripts for the senders every channel has its usual
sender. -/
structure Services where
  senders : Option (Members (Script (Cue Receipt)))
  http : Script (Cue HttpReply)
  completion : Script (Cue CompletionReply)
  contacts : Script (Cue Json)
  analytics : Script (Cue Unit)
  errands : Members (Script ErrandCue)

namespace Services

/-- Services that all do their usual thing. -/
def usual : Services :=
  ⟨none, [], [], [], [], []⟩

/-- The channels that have a sender. -/
def channels (s : Services) : List Channel :=
  match s.senders with
  | none => Channel.all
  | some senders => Channel.all.filter fun c => Members.has senders c.label

end Services

/-- How often each service was asked, by its name. -/
abbrev Requests := Members Nat

namespace Request

/-- The name of the service that a request goes to. -/
def service : Request → String
  | .send message => "sender " ++ message.channel.label
  | .dispatch _ => "http"
  | .complete _ => "completion"
  | .updateContact _ _ => "contacts"
  | .track _ => "analytics"
  | .delegate label _ => "errand " ++ label

end Request

namespace Requests

/-- How often the service of a request was asked before. -/
def before (counts : Requests) (request : Request) : Nat :=
  (Members.get? request.service counts).getD 0

/-- One more request. -/
def note (counts : Requests) (request : Request) : Requests :=
  Members.insert request.service (counts.before request + 1) counts

end Requests

namespace Cue

variable {α : Type}

/-- What a service says at a cue, or its usual reply without one. -/
def reply (cue : Option (Cue α)) (usual : α) : Except DeliveryFault α :=
  match cue.map Cue.line with
  | none | some .usual => .ok usual
  | some (.tells value) => .ok value
  | some (.fails fault) => .error fault

/-- How long a service takes at a cue. -/
def time (cue : Option (Cue α)) : Nat :=
  (cue.map Cue.wait).getD 0

end Cue

namespace Services

/-- The cue for a message. -/
def senderCue? (s : Services) (counts : Requests) (message : Message) : Option (Cue Receipt) :=
  (s.senders.bind (Members.get? message.channel.label)).bind fun script =>
    script.cue? (counts.before (.send message))

/-- The cue for a delegated node. -/
def errandCue? (s : Services) (counts : Requests) (label : String) (node : Node) : Option ErrandCue :=
  (Members.get? label s.errands).bind fun script => script.cue? (counts.before (.delegate label node))

/-- What the services reply to a request. -/
def reply (s : Services) (counts : Requests) : (request : Request) → Reply request
  | .send message =>
    let nth := Numeral.text (counts.before (.send message) + 1)
    Cue.reply (s.senderCue? counts message) ⟨some (message.channel.label ++ "-" ++ nth), none⟩
  | .dispatch call =>
    Cue.reply (s.http.cue? (counts.before (.dispatch call))) ⟨200, .record [("ok", .bool true)]⟩
  | .complete completion =>
    Cue.reply (s.completion.cue? (counts.before (.complete completion)))
      ⟨"echo: " ++ completion.prompt, "fake-model", none⟩
  | .updateContact contact fields =>
    Cue.reply (s.contacts.cue? (counts.before (.updateContact contact fields)))
      (.object (Members.insert "id" (.string contact) fields))
  | .track event => Cue.reply (s.analytics.cue? (counts.before (.track event))) ()
  | .delegate label node =>
    ((s.errandCue? counts label node).map ErrandCue.errand).getD ⟨.proceed, none, false⟩

/-- How long the services take for a request. -/
def time (s : Services) (counts : Requests) : Request → Nat
  | .send message => Cue.time (s.senderCue? counts message)
  | .dispatch call => Cue.time (s.http.cue? (counts.before (.dispatch call)))
  | .complete completion => Cue.time (s.completion.cue? (counts.before (.complete completion)))
  | .updateContact contact fields =>
    Cue.time (s.contacts.cue? (counts.before (.updateContact contact fields)))
  | .track event => Cue.time (s.analytics.cue? (counts.before (.track event)))
  | .delegate label node => ((s.errandCue? counts label node).map ErrandCue.wait).getD 0

/-- Whether the run asks to be cancelled when a request has been done. -/
def cancels (s : Services) (counts : Requests) : Request → Bool
  | .delegate label node => ((s.errandCue? counts label node).map fun c => c.errand.cancels).getD false
  | _ => false

end Services

end Outreach
