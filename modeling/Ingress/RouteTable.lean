-- The hosts of the proxy and the backends that their paths lead to. A path of a host leads to the
-- backend it was linked to first, and hosts are searched in the order in which they came.
import Ingress.Backend

namespace Ingress

/-- A path of a host and the backend it leads to. -/
structure Link where
  path : String
  backend : BackendId
deriving DecidableEq

/-- A host and its links, in the order in which they came. -/
structure Host where
  name : String
  links : List Link
deriving DecidableEq

/-- The host with one more link, unless its path has one. -/
def Host.link (h : Host) (path : String) (backend : BackendId) : Host :=
  if h.links.any (·.path = path) then h else { h with links := h.links ++ [⟨path, backend⟩] }

/-- The hosts, in the order in which they came. -/
structure RouteTable where
  hosts : List Host
deriving DecidableEq

namespace RouteTable

/-- The table without hosts. -/
def empty : RouteTable := ⟨[]⟩

/-- The host of a name. -/
def host? (t : RouteTable) (name : String) : Option Host := t.hosts.find? (·.name = name)

/-- The table with a host of a name, which comes last if it is new. -/
def acquire (t : RouteTable) (name : String) : RouteTable :=
  if t.hosts.any (·.name = name) then t else ⟨t.hosts ++ [⟨name, []⟩]⟩

/-- The table with a path of a host linked to a backend. -/
def link (t : RouteTable) (host path : String) (backend : BackendId) : RouteTable :=
  ⟨(t.acquire host).hosts.map fun h => if h.name = host then h.link path backend else h⟩

/-- The backend of a namespace that exactly this path of some host leads to. -/
def find? (t : RouteTable) (ns path : String) : Option BackendId :=
  ((t.hosts.flatMap (·.links)).find? fun l => l.path = path && l.backend.ns = ns).map (·.backend)

end RouteTable

end Ingress
