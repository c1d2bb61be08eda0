-- Snapshots as YAML documents.
import Ingress.Snapshot.Basic
import Ingress.Yaml.Decode

namespace Ingress.Snapshot

open Yaml (Decoder Fields Node)

/-- The kind of a resource whose document gives none. -/
def defaultKind : String := "ingress"

/-- The path of a rule whose document gives none. -/
def defaultPath : String := "/"

/-- The rule of a node. -/
def readRule (node : Node) : Decoder Rule := do
  let f ← Fields.ofNode ["host", "path", "service", "port"] node
  return {
    host := ← f.optional "host" Node.text ""
    path := ← f.optional "path" Node.text defaultPath
    service := ← f.required "service" Node.text
    port := ← f.required "port" Node.text }

/-- The resource of a node. -/
def readResource (node : Node) : Decoder Resource := do
  let f ← Fields.ofNode ["kind", "namespace", "name", "annotations", "rules"] node
  return {
    id := {
      kind := ← f.optional "kind" Node.text defaultKind
      ns := ← f.required "namespace" Node.text
      name := ← f.required "name" Node.text }
    annotations := ← f.optional "annotations" (Node.table Node.text) .empty
    rules := ← f.optional "rules" (Node.list readRule) [] }

/-- The endpoint of a node. -/
def readEndpoint (node : Node) : Decoder Endpoint := do
  let f ← Fields.ofNode ["ip", "port", "weight", "target_ref"] node
  return {
    ip := ← f.required "ip" Node.text
    port := ← f.required "port" (Node.natural 65535)
    weight := ← f.optional "weight" (Node.natural 4294967295) 1
    targetRef := ← f.optional "target_ref" Node.optionalText none }

/-- The backend of a node. -/
def readBackend (node : Node) : Decoder DeclaredBackend := do
  let f ← Fields.ofNode ["namespace", "name", "port", "tcp", "endpoints"] node
  return {
    id := {
      ns := ← f.required "namespace" Node.text
      name := ← f.required "name" Node.text
      port := ← f.required "port" Node.text }
    tcp := ← f.optional "tcp" Node.bool false
    endpoints := ← f.optional "endpoints" (Node.list readEndpoint) [] }

/-- The snapshot of a node. -/
def ofNode (node : Node) : Decoder Snapshot := do
  let f ← Fields.ofNode ["resources", "backends", "pods", "secrets"] node
  return {
    resources := ← f.optional "resources" (Node.list readResource) []
    backends := ← f.optional "backends" (Node.list readBackend) []
    pods := ← f.optional "pods" (Node.table (Node.table Node.text)) .empty
    secrets := ← f.optional "secrets" (Node.table (Node.table Node.text)) .empty }

/-- The snapshot of a text. -/
def ofText? (s : String) : Option Snapshot := do Decoder.of? ofNode (← Node.ofText? s)

end Ingress.Snapshot
