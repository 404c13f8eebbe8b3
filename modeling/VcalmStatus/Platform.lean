import VcalmStatus.Js.Text
import VcalmStatus.Services.Records

/-!
The platform underneath the HTTP layer: the WHATWG URL parser, `JSON.parse`, Unicode case mapping,
JWT verification and the texts of the schema library. They are parameters; the laws are the ones
the URL standard gives for the two schemes a list URL may have.
-/

namespace VcalmStatus

open Js

/-- The components of a parsed URL that are looked at. -/
structure Url where
  protocol : String
  host : String
  hostname : String
  pathname : String
  deriving DecidableEq, Repr

namespace Url

def isWeb (u : Url) : Bool := u.protocol = "https:" || u.protocol = "http:"

/-- `pathname.split('/').filter((segment) => segment !== '')`. -/
def segments (u : Url) : List String := (split u.pathname '/').filter (· ≠ "")

end Url

/-- What may stand between `//` and the path of a web URL once it is serialized. -/
def isAuthority (s : String) : Bool :=
  s ≠ "" && s.toList.all fun c => !isWhitespace c && c ≠ '/'

/-- `verify` is given the moment its clock shows. The host of a web URL, with or without its port,
is an authority that parses to the same hostname again, and a hostname is in lower case. Where a
text without query and fragment ends in an encoded component, that is the last segment of its
path. What is nested deeper than `maxNesting` is too deep for `JSON.stringify`, which has no more
stack than that. -/
structure Platform where
  parseUrl : String → Option Url
  parseJson : String → Option Json
  maxNesting : Nat
  toLowerCase : String → String
  verify : Date → String → String → Option Json
  zodMessage : ZodIssueCode → String
  isAuthority_host : ∀ {s u a}, parseUrl s = some u → u.isWeb → a = u.host ∨ a = u.hostname →
    isAuthority a
  parseUrl_host : ∀ {s u a}, parseUrl s = some u → u.isWeb → a = u.host ∨ a = u.hostname →
    ∃ v, parseUrl ("http://" ++ a) = some v ∧ v.hostname = u.hostname
  toLowerCase_hostname : ∀ {s u}, parseUrl s = some u → u.isWeb →
    toLowerCase u.hostname = u.hostname
  segments_encoded : ∀ {base id u a b}, (∀ c ∈ base.toList, c ≠ '?' ∧ c ≠ '#') →
    id ∉ dotSegments → parseUrl (base ++ "/" ++ encodeURIComponent id) = some u →
    u.segments = [a, b] → b = encodeURIComponent id

/-- A request as a handler sees it. `path` is what the router matches, `header` finds a header by
the name the source asks for it. -/
structure Request where
  method : String
  url : String
  path : String
  header : String → Option String
  body : String
  receivedAt : Date

structure Response where
  status : Nat
  headers : List (String × String) := []
  body : Option Json

/-- `c.json(body)`. -/
def Platform.json (platform : Platform) (body : Json) : Except JsError Response :=
  if platform.maxNesting < body.depth then .error (.other "RangeError")
  else .ok { status := 200, body := some body }

/-- `c.req.json()`. -/
def Request.json (platform : Platform) (request : Request) : Except JsError Json :=
  match platform.parseJson request.body with
  | some json => .ok json
  | none => .error (.other "SyntaxError")

end VcalmStatus
