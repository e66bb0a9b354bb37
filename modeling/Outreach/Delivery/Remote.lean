import Outreach.Delivery.Wire

/-!
# Services at an address

How each kind of request is put to a service that has an address, and how its response is read.
-/

namespace Outreach

/-- How services are reached: the network, and the time that a response may usually take. -/
structure Link where
  network : Network
  timeout : Nat

namespace Link

/-- Sends a request in JSON and reads the response of a service that took it. -/
def put (link : Link) (method url : String) (token : Option String) (body : Json) :
    Except DeliveryFault WireResponse := do
  let request ← WireRequest.build method url (bearer token) (some body) link.timeout
  (← link.network request).ensureSuccess

end Link

namespace Remote

/-! ## Messages -/

/-- The names under which a service has told the identifier of a message over time. -/
def idNames : List String :=
  ["messageId", "message_id", "id"]

/-- The identifier of a message in a response. -/
def messageId? (v : Json) : Option String :=
  (idNames.findSome? fun name => v.member? name).map fun id =>
    match id with
    | .string s => s
    | other => other.compact

/-- Hands a message to the service for them. -/
def send (link : Link) (base : String) (token : Option String) (message : Message) :
    Except DeliveryFault Receipt := do
  let response ← link.put "POST" (Url.join base "send") token
    (.record [("to", .string message.recipient), ("message", .string message.body)])
  let value := response.value
  .ok ⟨messageId? value, if value.isNull then none else some value⟩

/-! ## Texts to be written -/

/-- A part of the conversation with a writer. -/
def utterance (role content : String) : Json :=
  .record [("role", .string role), ("content", .string content)]

/-- What a writer is asked. -/
def conversation (usual : String) (c : Completion) : Json :=
  let system := (c.systemPrompt.filter fun s => !s.isEmpty).map (utterance "system")
  .record ([("model", .string (c.model.getD usual)),
    ("messages", .array (system.toList ++ [utterance "user" c.prompt]))] ++
    Json.present "temperature" (c.temperature.map .double) ++
    Json.present "max_tokens" (c.maxTokens.map .nat))

/-- What a writer replies. -/
structure Writing where
  model : Option String
  choices : List (Option String)
  usage : Option Json

namespace Writing

/-- How the text of a choice is read. -/
def messageLayout : Layout (Option String) where
  name := "ChatChoiceMessage"
  fields := [.defaulted "content" (.optional .text) fun v _ => v]
  blank := none

/-- How a choice is read. -/
def choiceLayout : Layout (Option String) where
  name := "ChatChoice"
  fields := [.required "message" messageLayout.read fun v _ => v]
  blank := none

/-- How a reply is read. -/
def layout : Layout Writing where
  name := "ChatResponse"
  fields := [
    .defaulted "model" (.optional .text) fun v w => { w with model := v },
    .required "choices" (.listOf choiceLayout.read) fun v w => { w with choices := v },
    .defaulted "usage" (.optional .any) fun v w => { w with usage := v }]
  blank := ⟨none, [], none⟩

end Writing

/-- Has a text written. -/
def complete (link : Link) (base : String) (key : Option String) (usual : String) (c : Completion) :
    Except DeliveryFault CompletionReply := do
  let response ← link.put "POST" (Url.join base "chat/completions") key (conversation usual c)
  match Writing.layout.read.ofJsonText response.text with
  | .error _ =>
    .error (.invalidResponse "failed to parse completion: error decoding response body")
  | .ok writing =>
    match writing.choices.head?.join with
    | none => .error (.invalidResponse "completion has no content")
    | some content => .ok ⟨content, writing.model.getD (c.model.getD usual), writing.usage⟩

/-! ## Contacts -/

/-- The address of a contact. -/
def contactUrl (base contact : String) : String :=
  Url.join base ("contacts/" ++ contact)

/-- A contact that holds the fields and its identifier. -/
def written (contact : String) (fields : Members Json) : Json :=
  .object (Members.insert "id" (.string contact) fields)

/-- Updates a contact; a service that says nothing is taken to have stored what was sent. -/
def updateContact (link : Link) (base contact : String) (fields : Members Json) :
    Except DeliveryFault Json := do
  let response ← link.put "PATCH" (contactUrl base contact) none (.object fields)
  .ok (if response.value.isNull then written contact fields else response.value)

/-! ## Events -/

/-- Counts an event. -/
def track (link : Link) (base : String) (event : Event) : Except DeliveryFault Unit := do
  let _ ← link.put "POST" (Url.join base "events") none event.toJson
  .ok ()

/-! ## Any address -/

/-- Sends an HTTP request as it is. Requests that only ask for something have no body; whatever
status comes back is for the node to judge. -/
def dispatch (link : Link) (call : HttpCall) : Except DeliveryFault HttpReply := do
  let method := String.ofList (call.method.toList.map Text.upperChar)
  if !WireRequest.isToken method then
    .error (.transport ("invalid HTTP method '" ++ call.method ++ "'"))
  else
    let body := if method = "GET" ∨ method = "HEAD" then none else call.body
    let request ← WireRequest.build method call.url call.headers body (call.timeout.getD link.timeout)
    let response ← link.network request
    .ok ⟨response.status, response.value⟩

end Remote

end Outreach
