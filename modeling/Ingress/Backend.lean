-- A backend of the proxy: what is routed to it, where it sends requests, and the configuration
-- that the annotations of its resources give it.
import Ingress.Path.Group

namespace Ingress

/-! ## Identity -/

/-- A backend, by the namespace, name and port of its service. -/
structure BackendId where
  ns : String
  name : String
  port : String
deriving DecidableEq

namespace BackendId

/-- The name of a backend in the configuration of the proxy. -/
def text (id : BackendId) : String := id.ns ++ "_" ++ id.name ++ "_" ++ id.port

/-- The service of a backend as messages name it. -/
def service (id : BackendId) : String := id.ns ++ "/" ++ id.name

end BackendId

/-! ## Endpoints -/

/-- A server behind a backend. Weight 0 means that it gets no requests. -/
structure Endpoint where
  ip : String
  port : Nat
  weight : Nat
  targetRef : Option String
deriving DecidableEq

/-- The address of an endpoint. -/
def Endpoint.address (e : Endpoint) : String := e.ip ++ ":" ++ e.port.repr

/-! ## Configuration -/

/-- How the session cookie of the proxy is put into a response. -/
inductive CookieStrategy where
  | inserted
  | rewritten
  | prefixed
deriving DecidableEq

namespace CookieStrategy

/-- A strategy as annotations name it. -/
def name : CookieStrategy → String
  | inserted => "insert"
  | rewritten => "rewrite"
  | prefixed => "prefix"

/-- The strategy of a name. -/
def ofName? (s : String) : Option CookieStrategy :=
  [inserted, rewritten, prefixed].find? (·.name = s)

end CookieStrategy

/-- The cookie that keeps a session on one endpoint. -/
structure Cookie where
  name : String
  strategy : CookieStrategy
  dynamic : Bool
deriving DecidableEq

/-- Basic authentication against the users of a userlist. -/
structure BasicAuth where
  userlist : String
  realm : Option String
deriving DecidableEq

/-- A user of a userlist, with an encrypted or a plain password. -/
structure User where
  name : String
  passwd : String
  encrypted : Bool
deriving DecidableEq

/-- Named credentials, shared by backends. -/
structure Userlist where
  name : String
  users : List User
deriving DecidableEq

/-- Strict transport security of a path. -/
structure Hsts where
  enabled : Bool
  maxAge : Int
  subdomains : Bool
  preload : Bool
deriving DecidableEq

/-- Authentication by a backend that runs an OAuth proxy. -/
structure OAuth where
  implementation : String
  backendName : String
  uriPrefix : String
  headers : Table String
deriving DecidableEq

/-! ## Backends -/

/-- A backend and its configuration. -/
structure Backend where
  id : BackendId
  paths : PathSet
  endpoints : List Endpoint
  tcp : Bool
  cookie : Option Cookie
  basicAuth : Option BasicAuth
  hsts : List (PathGroup Hsts)
  oauth : Option OAuth
  rewriteTargets : List (PathGroup String)
  waf : String
  httpRanges : List (PathGroup (List String))
  tcpRanges : List String
deriving DecidableEq

namespace Backend

/-- A backend to which nothing is routed and for which nothing is configured. -/
def bare (id : BackendId) (tcp : Bool) (endpoints : List Endpoint) : Backend where
  id := id
  paths := .empty
  endpoints := endpoints
  tcp := tcp
  cookie := none
  basicAuth := none
  hsts := []
  oauth := none
  rewriteTargets := []
  waf := ""
  httpRanges := []
  tcpRanges := []

/-- The id of the path that comes as number `n`, in at least two digits. -/
def pathId (n : Nat) : String := "path" ++ (if n < 10 then "0" else "") ++ n.repr

/-- The backend with a path of a host routed to it. A new path takes the next number. -/
def route (b : Backend) (host path : String) : Backend :=
  if (b.paths.find? (host ++ path)).isSome then b
  else { b with paths := b.paths.add ⟨pathId (b.paths.size + 1), host ++ path, path⟩ }

end Backend

end Ingress
