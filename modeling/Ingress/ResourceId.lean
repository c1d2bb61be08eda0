-- The resources of a cluster that declare annotations, as messages name them.

namespace Ingress

/-- A resource of a cluster, by kind, namespace and name. -/
structure ResourceId where
  kind : String
  ns : String
  name : String
deriving DecidableEq

/-- A resource as messages name it, such as `ingress 'default/app'`. -/
def ResourceId.text (r : ResourceId) : String :=
  r.kind ++ " '" ++ r.ns ++ "/" ++ r.name ++ "'"

/-- Where a value comes from: the resource that declared it, or the global configuration. -/
abbrev Origin := Option ResourceId

/-- An origin as messages name it. -/
def Origin.text : Origin → String
  | some r => r.text
  | none => "global config"

end Ingress
