import Outreach.Number.Numeral
import Outreach.Text.Percent
import Outreach.Text.Split

/-!
# Addresses of services

An address names a scheme, a host, perhaps a port, a path and perhaps a query; what stands behind a
number sign is not sent to the host. The segments of a path are taken one after the other: a segment
of one dot stays where it is, one of two dots takes back the segment before it, and in every other
one the characters that must not stand in an address are written with percent signs.
-/

namespace Outreach

/-- The address of a resource that is reached by HTTP. -/
structure Url where
  isSecure : Bool
  host : String
  port : Option Nat
  /-- The segments of the path, percent signs written. -/
  segments : List String
  query : Option String
  deriving DecidableEq, Repr

namespace Url

/-- Characters without a place in any part of an address. -/
def isControl (c : Char) : Bool :=
  c.toNat < 32 || 126 < c.toNat

/-- Characters that a path holds only with percent signs. -/
def mustEncodeInPath (c : Char) : Bool :=
  isControl c || [' ', '"', '<', '>', Char.ofNat 96, '#', '?', '\x7b', '\x7d'].contains c

/-- Characters that a query holds only with percent signs. -/
def mustEncodeInQuery (c : Char) : Bool :=
  isControl c || [' ', '"', '<', '>', '#', '\''].contains c

/-- Characters that cannot stand in the name of a host. -/
def isForbiddenInHost (c : Char) : Bool :=
  isControl c ||
    [' ', '#', '/', ':', '<', '>', '?', '@', '[', '\\', ']', '^', '|', '%'].contains c

/-- A text in which a dot written with a percent sign is a dot. -/
def plainDots : List Char → List Char
  | '%' :: '2' :: e :: rest =>
    if e = 'e' ∨ e = 'E' then '.' :: plainDots rest else '%' :: plainDots ('2' :: e :: rest)
  | c :: rest => c :: plainDots rest
  | [] => []
termination_by cs => cs.length

/-- A segment that stays where it is. -/
def isHere (segment : List Char) : Bool :=
  plainDots segment == ['.']

/-- A segment that takes back the one before it. -/
def isBack (segment : List Char) : Bool :=
  plainDots segment == ['.', '.']

/-- The segments that a path comes down to, the last one first. A path that ends in a segment of
dots ends in a slash. -/
def resolve : (taken : List (List Char)) → List (List Char) → List (List Char)
  | taken, [] => taken
  | taken, segment :: rest =>
    let taken := if isBack segment then taken.tail else taken
    let isDots := isBack segment || isHere segment
    if isDots then resolve (if rest.isEmpty then [] :: taken else taken) rest
    else resolve (Percent.encode mustEncodeInPath segment :: taken) rest

/-- The segments of a path, without the slash that it begins with; a backslash counts as a slash. -/
def pathSegments (path : List Char) : List String :=
  let slashed := path.map fun c => if c = '\\' then '/' else c
  let slashed := match slashed with
    | '/' :: rest => rest
    | cs => cs
  (resolve [] (Text.split '/' slashed)).reverse.map String.ofList

/-- A text without the spaces and control characters around it, and without line breaks and tabs. -/
def cleaned (text : String) : List Char :=
  let isEdge (c : Char) : Bool := c.toNat ≤ 32
  let trimmed := ((text.toList.dropWhile isEdge).reverse.dropWhile isEdge).reverse
  trimmed.filter fun c => c ≠ '\t' ∧ c ≠ '\n' ∧ c ≠ '\r'

/-- A port between a colon and the path: none where it is the usual one or left out. -/
def port? (isSecure : Bool) (digits : List Char) : Option (Option Nat) :=
  if digits.isEmpty then some none
  else (Numeral.below? 65536 digits).bind fun n =>
    if digits.all Numeral.isDigit then
      some (if n = (if isSecure then 443 else 80) then none else some n)
    else none

/-- The host and the port, from what stands between the slashes and the path. -/
def authority? (isSecure : Bool) (cs : List Char) : Option (String × Option Nat) :=
  let hostAndPort := (cs.reverse.takeWhile (· ≠ '@')).reverse
  let (host, digits) := match Text.splitOnce ':' hostAndPort with
    | some (host, digits) => (host, digits)
    | none => (hostAndPort, [])
  if host.isEmpty || host.any isForbiddenInHost then none
  else (port? isSecure digits).map fun port =>
    (String.ofList (host.map Text.lowerChar), port)

/-- The scheme of an address, and what stands behind its colon. -/
def scheme? (cs : List Char) : Option (Bool × List Char) :=
  (Text.splitOnce ':' cs).bind fun (name, rest) =>
    match String.ofList (name.map Text.lowerChar) with
    | "http" => some (false, rest)
    | "https" => some (true, rest)
    | _ => none

/-- Reads an address. -/
def read? (text : String) : Option Url :=
  let sent := (cleaned text).takeWhile (· ≠ '#')
  (scheme? sent).bind fun (isSecure, rest) =>
    let behind := rest.dropWhile fun c => c = '/' || c = '\\'
    let authority := behind.takeWhile fun c => c ≠ '/' && c ≠ '\\' && c ≠ '?'
    let target := behind.drop authority.length
    let (path, query) := match Text.splitOnce '?' target with
      | some (path, query) => (path, some query)
      | none => (target, none)
    (authority? isSecure authority).map fun (host, port) => {
      isSecure, host, port
      segments := pathSegments path
      query := query.map fun q => String.ofList (Percent.encode mustEncodeInQuery q) }

/-- The path as it is sent. -/
def path (u : Url) : String :=
  "/" ++ String.intercalate "/" u.segments

/-- The path and the query as they are sent. -/
def target (u : Url) : String :=
  u.path ++ (u.query.map fun q => "?" ++ q).getD ""

/-- The written form. -/
def render (u : Url) : String :=
  (if u.isSecure then "https://" else "http://") ++ u.host ++
    (u.port.map fun n => ":" ++ Numeral.text n).getD "" ++ u.target

/-- A text without the slashes at its end. -/
def trimEndSlashes (cs : List Char) : List Char :=
  (cs.reverse.dropWhile (· = '/')).reverse

/-- A path behind an address, with one slash between them. -/
def join (base path : String) : String :=
  String.ofList (trimEndSlashes base.toList ++ '/' :: path.toList.dropWhile (· = '/'))

end Url

end Outreach
