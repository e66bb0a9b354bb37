import Outreach.Executor.Basic
import Outreach.Variables.Template

/-!
# Nodes that talk to other systems

HTTP requests, updates of contacts and events to be counted. Everything that is sent has its
placeholders filled in first.
-/

namespace Outreach

/-- The settings of a node that sends an HTTP request. -/
structure HttpSettings where
  url : String
  method : String
  headers : Members String
  payload : Option Json
  timeout : Option Nat
  responseVariable : Option String

namespace HttpSettings

/-- How the settings are read. -/
def layout : Layout HttpSettings where
  name := "WebhookConfig"
  fields := [
    .required "url" .text fun v s => { s with url := v },
    .defaulted "method" .text fun v s => { s with method := v },
    .defaulted "headers" (.membersOf .text) fun v s => { s with headers := v },
    .defaulted "payload" (.optional .any) fun v s => { s with payload := v },
    .defaulted "timeoutMs" (.optional .nat64) fun v s => { s with timeout := v },
    .defaulted "responseVariable" (.optional .text) fun v s => { s with responseVariable := v }]
  blank := ⟨"", "POST", [], none, none, none⟩

/-- The settings as a value. -/
def toJson (s : HttpSettings) : Json :=
  .record [("url", .string s.url), ("method", .string s.method),
    ("headers", .object (s.headers.mapValues .string)), ("payload", .orNull s.payload),
    ("timeoutMs", .orNull (s.timeout.map .nat)), ("responseVariable", .textOrNull s.responseVariable)]

/-- The method in capitals. -/
def verb (s : HttpSettings) : String :=
  String.ofList (s.method.toList.map Text.upperChar)

end HttpSettings

/-- The settings of a node that updates a contact. -/
structure ContactSettings where
  contactId : Option String
  fields : Members Json

namespace ContactSettings

/-- How the settings are read. -/
def layout : Layout ContactSettings where
  name := "UpdateContactConfig"
  fields := [
    .defaulted "contactId" (.optional .text) fun v s => { s with contactId := v },
    .required "fields" (.membersOf .any) fun v s => { s with fields := v }]
  blank := ⟨none, []⟩

/-- The settings as a value. -/
def toJson (s : ContactSettings) : Json :=
  .record [("contactId", .textOrNull s.contactId), ("fields", .object s.fields)]

/-- The identifier of the contact, before its placeholders are filled in. -/
def contact (s : ContactSettings) : String :=
  s.contactId.getD "\x7b\x7bcontact.id\x7d\x7d"

end ContactSettings

/-- The settings of a node that counts an event. -/
structure EventSettings where
  event : String
  properties : Members Json

namespace EventSettings

/-- How the settings are read. -/
def layout : Layout EventSettings where
  name := "TrackEventConfig"
  fields := [
    .required "event" .text fun v s => { s with event := v },
    .defaulted "properties" (.membersOf .any) fun v s => { s with properties := v }]
  blank := ⟨"", []⟩

/-- The settings as a value. -/
def toJson (s : EventSettings) : Json :=
  .record [("event", .string s.event), ("properties", .object s.properties)]

end EventSettings

namespace Executor

namespace Http

/-- The methods that may be used. -/
def methods : List String :=
  ["GET", "POST", "PUT", "PATCH", "DELETE", "HEAD"]

/-- The request of a node. -/
def call (settings : HttpSettings) (vars : Variables) : HttpCall where
  method := settings.verb
  url := Template.interpolate settings.url vars
  headers := settings.headers.mapValues fun v => Template.interpolate v vars
  body := settings.payload.map (Template.interpolateValue vars)
  timeout := settings.timeout

/-- What a response leaves behind. -/
def settle (settings : HttpSettings) (call : HttpCall) (reply : HttpReply) : ActionResult :=
  let data := Json.record [("status", .nat reply.status), ("body", reply.body)]
  if reply.isSuccess then
    let result := ActionResult.proceed.withData data
    match settings.responseVariable.filter fun v => !v.isEmpty with
    | some name => result.withVariable name reply.body
    | none => result
  else
    (ActionResult.failure (call.method ++ " " ++ call.url ++ " returned HTTP " ++
      Numeral.text reply.status)).withData data

/-- Sends the request of a node. -/
def perform (_ : Instant) (node : Node) (e : Execution) : Task :=
  withSettings HttpSettings.layout node fun settings =>
    let call := call settings e.vars
    .ask (.dispatch call) fun _ reply => .done <|
      match reply with
      | .ok reply => settle settings call reply
      | .error fault => .failure (call.method ++ " " ++ call.url ++ " failed: " ++ fault.message)

/-- Whether a text begins with another. -/
def beginsWith (start text : String) : Bool :=
  start.toList.isPrefixOf text.toList

/-- What is wrong with settings. -/
def check (settings : HttpSettings) : Verdict :=
  let url := String.ofList (Text.trim settings.url.toList)
  let start :=
    if url.isEmpty then Verdict.valid.error "url is required"
    else Verdict.valid.errorIf
      (!(beginsWith "http://" url || beginsWith "https://" url || beginsWith "\x7b\x7b" url))
      ("url '" ++ url ++ "' must start with http:// or https://")
  start.errorIf (!methods.contains settings.verb)
    ("unsupported HTTP method '" ++ settings.method ++ "'")

end Http

namespace Contact

/-- What an update leaves behind: its fields also stand in the variable of the contact. -/
def settle (vars : Variables) (fields : Members Json) (stored : Json) : ActionResult :=
  let existing := match Members.get? "contact" vars with
    | some (.object members) => members
    | _ => []
  let updated : Json := .object (Members.merge existing fields)
  (ActionResult.proceed.withVariable "contact" updated).withData stored

/-- Updates the contact of a node, if its identifier is known. -/
def perform (_ : Instant) (node : Node) (e : Execution) : Task :=
  withSettings ContactSettings.layout node fun settings =>
    let contact := Template.interpolate settings.contact e.vars
    if Text.isBlankText contact || Template.mayHoldPlaceholder contact then
      .done (.failure "contact id could not be resolved")
    else
      let fields := settings.fields.mapValues (Template.interpolateValue e.vars)
      .ask (.updateContact contact fields) fun _ reply => .done <|
        match reply with
        | .ok stored => settle e.vars fields stored
        | .error fault => .failure ("contact update failed: " ++ fault.message)

/-- What is wrong with settings. -/
def check (settings : ContactSettings) : Verdict :=
  (Verdict.valid.errorIf settings.fields.isEmpty "fields must not be empty").warningIf
    settings.contactId.isNone "no contactId set; \x7b\x7bcontact.id\x7d\x7d will be used"

end Contact

namespace Tracking

/-- The event of a node. -/
def event (settings : EventSettings) (now : Instant) (e : Execution) : Event where
  name := Template.interpolate settings.event e.vars
  properties := settings.properties.mapValues (Template.interpolateValue e.vars)
  executionId := e.id
  funnelId := e.funnelId
  timestamp := now

/-- Counts the event of a node. -/
def perform (now : Instant) (node : Node) (e : Execution) : Task :=
  withSettings EventSettings.layout node fun settings =>
    let event := event settings now e
    .ask (.track event) fun _ reply => .done <|
      match reply with
      | .ok () => ActionResult.proceed.withVariable "last_event" (.record [
          ("event", .string event.name), ("trackedAt", .string event.timestamp.renderNumeric)])
      | .error fault => .failure ("event tracking failed: " ++ fault.message)

/-- What is wrong with settings. -/
def check (settings : EventSettings) : Verdict :=
  Verdict.valid.errorIf (Text.isBlankText settings.event) "event is required"

end Tracking

/-- Sends HTTP requests. -/
def http : Executor where
  family := "http"
  isExempt := false
  examine := examineSettings HttpSettings.layout Http.check
  perform := Http.perform

/-- Updates contacts. -/
def contact : Executor where
  family := "contact"
  isExempt := false
  examine := examineSettings ContactSettings.layout Contact.check
  perform := Contact.perform

/-- Counts events. -/
def tracking : Executor where
  family := "tracking"
  isExempt := false
  examine := examineSettings EventSettings.layout Tracking.check
  perform := Tracking.perform

end Executor

end Outreach
