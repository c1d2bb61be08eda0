-- A snapshot of a cluster: the resources with their annotations and rules, the backends with their
-- endpoints, the labels of pods and the contents of secrets.
import Ingress.Backend
import Ingress.Cluster
import Ingress.ResourceId
import Ingress.Text.Utf8

namespace Ingress

/-- A rule of a resource, which routes a path of a host to a service of the resource's namespace. -/
structure Rule where
  host : String
  path : String
  service : String
  port : String
deriving DecidableEq

/-- The hostpath of a rule, which is the scope of its resource's annotations. -/
def Rule.hostpath (r : Rule) : String := r.host ++ r.path

/-- A resource with its annotations and rules. -/
structure Resource where
  id : ResourceId
  annotations : Table String
  rules : List Rule
deriving DecidableEq

/-- The backend that a rule of a resource routes to. -/
def Resource.target (r : Resource) (rule : Rule) : BackendId :=
  ⟨r.id.ns, rule.service, rule.port⟩

/-- A backend as a snapshot declares it. -/
structure DeclaredBackend where
  id : BackendId
  tcp : Bool
  endpoints : List Endpoint
deriving DecidableEq

/-- The state of a cluster. -/
structure Snapshot where
  resources : List Resource
  backends : List DeclaredBackend
  pods : Table (Table String)
  secrets : Table (Table String)
deriving DecidableEq

namespace Snapshot

/-- What the snapshot tells of secrets and pods. A secret is known by its contents, so one without
any is not known. -/
def cluster (s : Snapshot) : Cluster :=
  let withPods := s.pods.entries.foldl (fun c (targetRef, labels) => c.addPod targetRef labels)
    Cluster.empty
  s.secrets.entries.foldl (fun c (secret, contents) =>
    contents.entries.foldl (fun c (key, text) => c.addSecret secret key (Text.utf8Encode text)) c)
    withPods

/-- The rules of all resources, each with its resource, in the order of the snapshot. -/
def routes (s : Snapshot) : List (Resource × Rule) :=
  s.resources.flatMap fun r => r.rules.map fun rule => (r, rule)

end Snapshot

end Ingress
