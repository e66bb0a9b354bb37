import Outreach.Delivery.Basic
import Outreach.Delivery.Url
import Outreach.Source.JsonText
import Outreach.Text.Blank

/-!
# Requests and responses over HTTP

A request has a method, an address, headers and perhaps a body in JSON; a response has a status and
a text. A network takes a request to its host and brings back the response, or says why it could
not.
-/

namespace Outreach

/-- A request as it goes over the network. -/
structure WireRequest where
  method : String
  url : Url
  /-- Names in lower case. -/
  headers : List (String × String)
  body : Option Json
  /-- The time in milliseconds within which the response has to come. -/
  timeout : Nat

/-- A response as it comes back. -/
structure WireResponse where
  status : Nat
  text : String

/-- What takes requests to their hosts. -/
abbrev Network := WireRequest → Except DeliveryFault WireResponse

namespace WireRequest

/-- A character of a method or of the name of a header. -/
def isTokenChar (c : Char) : Bool :=
  Numeral.isDigit c || ('a' ≤ c && c ≤ 'z') || ('A' ≤ c && c ≤ 'Z') ||
    ['!', '#', '$', '%', '&', '\'', '*', '+', '-', '.', '^', '_', Char.ofNat 96, '|', '~'].contains c

/-- Whether a text is a method or the name of a header. -/
def isToken (text : String) : Bool :=
  !text.isEmpty && text.toList.all isTokenChar

/-- Whether a text may be the value of a header. -/
def isHeaderValue (text : String) : Bool :=
  text.toList.all fun c => c = '\t' || (32 ≤ c.toNat && c.toNat ≠ 127)

/-- The name under which the program makes its requests. -/
def agent : String := "funnel-engine/0.1.0"

/-- A header, unless one with its name is there. -/
def withUsual (name value : String) (headers : List (String × String)) : List (String × String) :=
  if headers.any fun h => h.1 == name then headers else headers ++ [(name, value)]

/-- Makes up a request. An address that cannot be read and a header that cannot be written are
faults before anything is sent. -/
def build (method url : String) (headers : List (String × String)) (body : Option Json)
    (timeout : Nat) : Except DeliveryFault WireRequest :=
  match Url.read? url with
  | none => .error (.transport "builder error")
  | some url =>
    if headers.all fun h => isToken h.1 && isHeaderValue h.2 then
      let named := headers.map fun h => (Text.lower h.1, h.2)
      let named := if body.isSome then withUsual "content-type" "application/json" named else named
      .ok { method, url, headers := withUsual "user-agent" agent named, body, timeout }
    else .error (.transport "builder error")

/-- The first line of a request. -/
def line (r : WireRequest) : String :=
  r.method ++ " " ++ r.url.target ++ " HTTP/1.1"

end WireRequest

namespace WireResponse

/-- Whether the status says that the request worked. -/
def isSuccess (r : WireResponse) : Bool :=
  200 ≤ r.status && r.status < 300

/-- The text of a response without the byte order mark that it may begin with. -/
def marked (r : WireResponse) : String :=
  match r.text.toList with
  | '\ufeff' :: rest => String.ofList rest
  | _ => r.text

/-- The value of a response: null where its text is blank, and the text itself where it is not
JSON. -/
def value (r : WireResponse) : Json :=
  if Text.isBlankText r.marked then .null
  else (Json.parse? r.marked).getD (.string r.marked)

/-- Refuses a response whose status does not say that the request worked. -/
def ensureSuccess (r : WireResponse) : Except DeliveryFault WireResponse :=
  if r.isSuccess then .ok r else .error (.status r.status r.marked)

end WireResponse

/-- A network in which no host can be reached. -/
def Network.unreachable : Network := fun request =>
  .error (.transport ("error sending request for url (" ++ request.url.render ++ ")"))

/-- The header that shows a secret token. -/
def bearer (token : Option String) : List (String × String) :=
  (token.map fun t => ("authorization", "Bearer " ++ t)).toList

end Outreach
