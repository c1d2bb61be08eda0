-- The rendering of a snapshot: every reference is resolved first, and only then the backends are
-- updated, one after the other. A snapshot with a bad reference is refused before anything is told.
import Ingress.Snapshot.Basic
import Ingress.Update

namespace Ingress

/-! ## Refusals -/

/-- Why a snapshot cannot be rendered. -/
inductive RenderError where
  | duplicateBackend (id : BackendId)
  | unknownBackend (resource : ResourceId) (id : BackendId)
deriving DecidableEq

/-- The wording of a refusal. -/
def RenderError.message : RenderError → String
  | .duplicateBackend id => "backend '" ++ id.text ++ "' is declared more than once"
  | .unknownBackend resource id =>
    resource.text ++ " routes to unknown backend '" ++ id.text ++ "'"

/-! ## Drafts -/

/-- The configuration of every backend, and the userlists that it refers to. -/
structure Rendered where
  backends : List Backend
  userlists : List Userlist
deriving DecidableEq

/-- The drafts of all backends and the routes of all hosts. -/
structure Layout where
  drafts : List Draft
  routes : RouteTable

namespace Layout

/-- Before anything is declared or routed. -/
def empty : Layout := ⟨[], .empty⟩

/-- Whether a backend is declared. -/
def declares (l : Layout) (id : BackendId) : Bool := l.drafts.any (·.backend.id = id)

/-- The layout with one more backend, unless it is declared already. -/
def declare (settings : Settings) (l : Layout) (b : DeclaredBackend) : Except RenderError Layout :=
  if l.declares b.id then .error (.duplicateBackend b.id)
  else
    let draft := ⟨Backend.bare b.id b.tcp b.endpoints, Annotations.empty settings⟩
    .ok { l with drafts := l.drafts ++ [draft] }

/-- The draft with a rule of a resource routed to it, and the resource's annotations declared at the
rule's hostpath. -/
def attach (own : Table String) (resource : ResourceId) (rule : Rule) (d : Draft) : Draft where
  backend := d.backend.route rule.host rule.path
  annotations :=
    { d.annotations with
      declared := d.annotations.declared.addAll resource rule.hostpath own }

/-- The layout with one more rule of a resource, unless its backend is not declared. -/
def route (settings : Settings) (l : Layout) (r : Resource × Rule) : Except RenderError Layout :=
  let id := r.1.target r.2
  if l.declares id then
    let own := ownAnnotations settings.keyPrefix r.1.annotations
    .ok
      { drafts := l.drafts.map fun d =>
          if d.backend.id = id then attach own r.1.id r.2 d else d
        routes := l.routes.link r.2.host r.2.path id }
  else .error (.unknownBackend r.1.id id)

end Layout

namespace Snapshot

/-- The drafts and routes of a snapshot: all backends are declared, then all rules are routed. -/
def layout (s : Snapshot) (settings : Settings) : Except RenderError Layout := do
  let declared ← s.backends.foldlM (Layout.declare settings) Layout.empty
  s.routes.foldlM (Layout.route settings) declared

end Snapshot

/-! ## Rendering -/

/-- Updates drafts one after the other, each with the userlists that the earlier ones left. -/
def updateAll (cluster : ClusterView) (routes : RouteTable) :
    List Draft → List Userlist → Logged Rendered
  | [], lists => pure ⟨[], lists⟩
  | draft :: rest, lists => do
    Logged.tell (.updating draft.backend.id draft.backend.paths.size)
    let (backend, lists) ← draft.update cluster routes lists
    let rendered ← updateAll cluster routes rest lists
    return { rendered with backends := backend :: rendered.backends }

/-- The configuration of all backends of a snapshot, in the order of their declarations. -/
def Snapshot.render (s : Snapshot) (settings : Settings) :
    Logged (Except RenderError Rendered) :=
  match s.layout settings with
  | .error error => pure (.error error)
  | .ok layout => do
    return .ok (← updateAll s.cluster layout.routes layout.drafts [])

end Ingress
