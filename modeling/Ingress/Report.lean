-- The report of rendered backends and userlists as JSON.
import Ingress.Json
import Ingress.Snapshot.Render

namespace Ingress.Report

/-! ## Parts of backends -/

/-- A table as an object. -/
def table {α : Type} (convert : α → Json) (t : Table α) : Json :=
  .object (t.entries.map fun (key, value) => (key, convert value))

/-- The identity of a backend as an object. -/
def backendId (id : BackendId) : Json :=
  .object [("namespace", .string id.ns), ("name", .string id.name), ("port", .string id.port)]

/-- A path as an object. -/
def path (p : RoutePath) : Json :=
  .object [("id", .string p.id), ("hostpath", .string p.hostpath), ("path", .string p.path)]

/-- Paths as an array. -/
def paths (s : PathSet) : Json := Json.ofList path s.toList

/-- A group of paths and what they share, as an object. -/
def group {α : Type} (convert : α → Json) (g : PathGroup α) : Json :=
  .object [("paths", paths g.paths), ("config", convert g.config)]

/-- An endpoint as an object. -/
def endpoint (e : Endpoint) : Json :=
  .object [("ip", .string e.ip), ("port", .number e.port), ("weight", .number e.weight),
    ("target_ref", Json.ofOption .string e.targetRef)]

/-- A session cookie as an object. -/
def cookie (c : Cookie) : Json :=
  .object [("name", .string c.name), ("strategy", .string c.strategy.name),
    ("dynamic", .bool c.dynamic)]

/-- Basic authentication as an object. -/
def basicAuth (a : BasicAuth) : Json :=
  .object [("userlist", .string a.userlist), ("realm", Json.ofOption .string a.realm)]

/-- Strict transport security as an object. -/
def hsts (h : Hsts) : Json :=
  .object [("enabled", .bool h.enabled), ("max_age", .number h.maxAge),
    ("subdomains", .bool h.subdomains), ("preload", .bool h.preload)]

/-- Authentication by a proxy as an object. -/
def oauth (o : OAuth) : Json :=
  .object [("implementation", .string o.implementation), ("backend_name", .string o.backendName),
    ("uri_prefix", .string o.uriPrefix), ("headers", table .string o.headers)]

/-! ## Backends and userlists -/

/-- A backend and its configuration as an object. -/
def backend (b : Backend) : Json :=
  .object [("id", backendId b.id), ("paths", paths b.paths),
    ("endpoints", Json.ofList endpoint b.endpoints), ("mode_tcp", .bool b.tcp),
    ("cookie", Json.ofOption cookie b.cookie), ("auth_http", Json.ofOption basicAuth b.basicAuth),
    ("hsts", Json.ofList (group hsts) b.hsts), ("oauth", Json.ofOption oauth b.oauth),
    ("rewrite_url", Json.ofList (group .string) b.rewriteTargets), ("waf", .string b.waf),
    ("whitelist_http", Json.ofList (group (Json.ofList .string)) b.httpRanges),
    ("whitelist_tcp", Json.ofList .string b.tcpRanges)]

/-- A user as an object. -/
def user (u : User) : Json :=
  .object [("name", .string u.name), ("passwd", .string u.passwd),
    ("encrypted", .bool u.encrypted)]

/-- A userlist as an object. -/
def userlist (l : Userlist) : Json :=
  .object [("name", .string l.name), ("users", Json.ofList user l.users)]

/-- The whole report. -/
def rendered (r : Rendered) : Json :=
  .object [("backends", Json.ofList backend r.backends),
    ("userlists", Json.ofList userlist r.userlists)]

end Ingress.Report
