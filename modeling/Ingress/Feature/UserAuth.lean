-- Basic authentication of users. The users of a secret are read once and registered as a userlist,
-- which every backend with the same secret refers to.
import Ingress.Annotations
import Ingress.Text.Utf8

namespace Ingress.UserAuth

/-- The key under which a secret holds its users. -/
def usersKey : String := "auth"

/-- A secret's name with its namespace. A name without one is taken in the given namespace. -/
def qualified (ns name : String) : String :=
  if '/' ∈ name.toList then name else ns ++ "/" ++ name

/-- The name of the userlist of a secret. -/
def userlistName (secret : String) : String :=
  String.ofList (secret.toList.map fun c => if c = '/' then '_' else c)

/-- The userlist of a secret that holds these bytes. -/
def userlist (secret : String) (content : List UInt8) : Userlist :=
  ⟨userlistName secret, usersOf (readUsers (Text.utf8Decode content))⟩

/-- The events of reading a secret that holds these bytes. -/
def userlistEvents (secret : String) (origin : Origin) (content : List UInt8) : List Event :=
  let entries := readUsers (Text.utf8Decode content)
  (faultsOf entries).map (.malformedUser secret origin) ++
    if usersOf entries = [] then [.emptyUserlist origin] else []

/-- The userlists with the one of a secret, unless its name is registered already. There are none if
the secret cannot be read. -/
def register (cluster : ClusterView) (origin : Origin) (secret : String) (lists : List Userlist) :
    Logged (Option (List Userlist)) :=
  if lists.any (·.name = userlistName secret) then pure (some lists)
  else match cluster.secret secret usersKey with
    | .error error => do
      Logged.tell (.unreadableAuthSecret origin error)
      return none
    | .ok content => do
      Logged.tellAll (userlistEvents secret origin content)
      return some (lists ++ [userlist secret content])

/-- The realm that an annotation names, if it is not empty and has no quotes. -/
def realm (r : Reading) : Logged (Option String) :=
  if '"' ∈ r.value.toList then do
    Logged.tell (.quotedRealm r.origin)
    return none
  else pure (if r.value = "" then none else some r.value)

/-- Authentication against the secret that an annotation names, and the userlists with its own. -/
def authenticate (a : Annotations) (cluster : ClusterView) (ns : String) (origin : Origin)
    (secret : Reading) (lists : List Userlist) : Logged (Option BasicAuth × List Userlist) := do
  let name := qualified ((secret.origin.map (·.ns)).getD ns) secret.value
  match ← register cluster origin name lists with
  | none => return (none, lists)
  | some lists =>
    let realm ← realm (← a.read Key.authRealm)
    return (some ⟨userlistName name, realm⟩, lists)

/-- The basic authentication of a backend of a namespace, if it has one that can be used, and the
userlists with its own. -/
def resolve (a : Annotations) (cluster : ClusterView) (ns : String) (lists : List Userlist) :
    Logged (Option BasicAuth × List Userlist) := do
  let kind ← a.read Key.authType
  if kind.value = "" then return (none, lists)
  else if kind.value ≠ "basic" then
    Logged.tell (.unsupportedAuth kind.origin kind.value)
    return (none, lists)
  else
    let secret ← a.read Key.authSecret
    if secret.value = "" then
      Logged.tell (.missingAuthSecret kind.origin)
      return (none, lists)
    else authenticate a cluster ns kind.origin secret lists

end Ingress.UserAuth
