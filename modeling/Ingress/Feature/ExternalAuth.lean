-- Authentication by an OAuth proxy that is a backend of its own, and the headers that carry what it
-- found out.
import Ingress.Annotations
import Ingress.RouteTable

namespace Ingress.ExternalAuth

/-- The only proxy that is known. -/
def proxy : String := "oauth2_proxy"

/-- The path of the proxy, unless an annotation gives another one. -/
def defaultUri : String := "/oauth2"

/-- The headers, unless an annotation or a default gives others. -/
def defaultHeaders : String := "X-Auth-Request-Email:auth_response_email"

/-! ## Headers -/

/-- Whether a character may stand in the name of a header. -/
def isHeaderChar (c : Char) : Bool :=
  c.isAlphanum || "!#$%&'*+-.^_\x60|~".toList.contains c

/-- Whether a text may be the name of a header. -/
def isHeaderName (cs : List Char) : Bool :=
  cs ≠ [] && decide (cs.length ≤ 65535) && cs.all isHeaderChar

/-- The header and the value of an entry that holds one colon, behind a valid name. -/
def readHeader? (entry : List Char) : Option (String × String) :=
  match Text.split ':' entry with
  | [name, value] =>
    if isHeaderName name then some (String.ofList name, String.ofList value) else none
  | _ => none

/-- The entries between commas that are not empty. -/
def headerEntries (s : String) : List (List Char) := (Text.split ',' s.toList).filter (· ≠ [])

/-- The values by header. A later entry of a header takes the place of an earlier one. -/
def readHeaders (s : String) : Table String :=
  Table.ofList ((headerEntries s).filterMap readHeader?)

/-- The events of entries that are no headers. -/
def headerEvents (origin : Origin) (s : String) : List Event :=
  ((headerEntries s).filter fun entry => (readHeader? entry).isNone).map fun entry =>
    .invalidHeader origin (String.ofList entry)

/-! ## The feature -/

/-- The list of headers that a reading stands for: an empty list counts if a resource declares
it. -/
def headerList (r : Reading) : String :=
  if r.origin.isSome then r.value else r.orElse defaultHeaders

/-- Authentication by the proxy that a path of a namespace leads to. -/
def viaProxy (a : Annotations) (routes : RouteTable) (origin : Origin) (ns uri : String) :
    Logged (Option OAuth) :=
  match routes.find? ns uri with
  | none => do
    Logged.tell (.unknownOAuthPath uri ns)
    return none
  | some id => do
    let headers := headerList (← a.read Key.oauthHeaders)
    Logged.tellAll (headerEvents origin headers)
    return some ⟨proxy, id.text, uri, readHeaders headers⟩

/-- The external authentication of a backend of a namespace, if it has one that can be used. -/
def resolve (a : Annotations) (routes : RouteTable) (ns : String) : Logged (Option OAuth) := do
  let kind ← a.read Key.oauth
  if kind.value = "" then return none
  else if kind.value ≠ proxy then
    Logged.tell (.unsupportedOAuth kind.origin kind.value)
    return none
  else
    let uri := (← a.read Key.oauthUri).orElse defaultUri
    viaProxy a routes kind.origin ((kind.origin.map (·.ns)).getD ns) uri

end Ingress.ExternalAuth
