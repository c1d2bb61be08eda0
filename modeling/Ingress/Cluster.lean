-- What is known of the cluster beside its resources: the contents of secrets and the labels of
-- pods. An update only asks for them, so whatever answers will do. Tables are one way to answer.
import Ingress.Table

namespace Ingress

/-- Why something was not found in the cluster. -/
inductive LookupError where
  | secretNotFound (secret : String)
  | missingKey (secret key : String)
  | podNotFound (targetRef : String)
deriving DecidableEq

/-- The wording of a failed lookup. -/
def LookupError.message : LookupError → String
  | .secretNotFound secret => "secret not found: '" ++ secret ++ "'"
  | .missingKey secret key =>
    "secret '" ++ secret ++ "' does not have file/key '" ++ key ++ "'"
  | .podNotFound targetRef => "pod not found: '" ++ targetRef ++ "'"

/-- What an update asks of a cluster: the content under a key of a secret, and the labels of the pod
behind a target reference. -/
structure ClusterView where
  secret : String → String → Except LookupError (List UInt8)
  podLabels : String → Except LookupError (Table String)

/-- The bytes of secrets, by secret and key, and the labels of pods, by target reference. -/
structure Cluster where
  secrets : Table (Table (List UInt8))
  pods : Table (Table String)

namespace Cluster

/-- The cluster of which nothing is known. -/
def empty : Cluster := ⟨.empty, .empty⟩

/-- The cluster with a content under a key of a secret. -/
def addSecret (c : Cluster) (secret key : String) (content : List UInt8) : Cluster :=
  let contents := (c.secrets.find? secret).getD .empty
  { c with secrets := c.secrets.insert secret (contents.insert key content) }

/-- The cluster with a pod. -/
def addPod (c : Cluster) (targetRef : String) (labels : Table String) : Cluster :=
  { c with pods := c.pods.insert targetRef labels }

/-- The content under a key of a secret. -/
def secret (c : Cluster) (name key : String) : Except LookupError (List UInt8) :=
  match c.secrets.find? name with
  | none => .error (.secretNotFound name)
  | some contents =>
    match contents.find? key with
    | none => .error (.missingKey name key)
    | some content => .ok content

/-- The labels of the pod behind a target reference. -/
def podLabels (c : Cluster) (targetRef : String) : Except LookupError (Table String) :=
  match c.pods.find? targetRef with
  | none => .error (.podNotFound targetRef)
  | some labels => .ok labels

/-- The answers that the tables give. -/
def view (c : Cluster) : ClusterView := ⟨c.secret, c.podLabels⟩

instance : Coe Cluster ClusterView := ⟨view⟩

end Cluster

end Ingress
