-- Basic authentication in closed form: the secret that annotations ask for, the users in it, and
-- what becomes of the userlists. Main statement: a backend that authenticates again finds the
-- userlists as it left them.
import Ingress.Feature.UserAuth

namespace Ingress.UserAuth

/-! ## Secrets -/

/-- The secret that a backend of a namespace authenticates against, if its annotations ask for basic
authentication and name one. A name without a namespace is taken in the one of the resource that
declares it, or in the backend's own if it is a default. -/
def secretName? (a : Annotations) (ns : String) : Option String :=
  let secret := (a.read Key.authSecret).value
  if (a.read Key.authType).value.value = "basic" ∧ secret.value ≠ "" then
    some (qualified ((secret.origin.map (·.ns)).getD ns) secret.value)
  else none

/-- The users in a secret, if it can be read. -/
def users? (cluster : ClusterView) (secret : String) : Option (List User) :=
  (cluster.secret secret usersKey).toOption.map fun content =>
    usersOf (readUsers (Text.utf8Decode content))

/-! ## Userlists -/

/-- The userlists with the one of a secret, if its name is registered or it can be read. -/
def registered (cluster : ClusterView) (secret : String) (lists : List Userlist) :
    Option (List Userlist) :=
  if lists.any (·.name = userlistName secret) then some lists
  else (users? cluster secret).map fun users => lists ++ [⟨userlistName secret, users⟩]

theorem value_register (cluster : ClusterView) (origin : Origin) (secret : String)
    (lists : List Userlist) :
    (register cluster origin secret lists).value = registered cluster secret lists := by
  unfold register registered users?
  split
  · rfl
  · cases cluster.secret secret usersKey <;> rfl

/-- The name of a secret is registered once its userlist is. -/
theorem registered_registered {cluster : ClusterView} {secret : String}
    {lists lists' : List Userlist} (h : registered cluster secret lists = some lists') :
    registered cluster secret lists' = some lists' := by
  unfold registered at h
  split at h
  · next hany => rw [← Option.some.inj h, registered, if_pos hany]
  · obtain ⟨users, -, rfl⟩ := Option.map_eq_some_iff.mp h
    simp [registered]

/-! ## Authentication -/

/-- The authentication of a backend against a secret. -/
def against (a : Annotations) (secret : String) : BasicAuth :=
  ⟨userlistName secret, (realm (a.read Key.authRealm).value).value⟩

/-- A backend gets an authentication only together with the userlists that it refers to. -/
theorem value_resolve (a : Annotations) (cluster : ClusterView) (ns : String)
    (lists : List Userlist) :
    (resolve a cluster ns lists).value =
      let set := (secretName? a ns).bind fun secret =>
        (registered cluster secret lists).map fun lists' => (against a secret, lists')
      (set.map (·.1), (set.map (·.2)).getD lists) := by
  unfold resolve secretName?
  simp only [Logged.value_bind]
  by_cases hkind : (a.read Key.authType).value.value = "basic"
  · by_cases hsecret : (a.read Key.authSecret).value.value = ""
    · simp [hkind, hsecret]
    · simp only [hkind, hsecret, authenticate, Logged.value_bind, value_register, ne_eq,
        not_false_eq_true, and_self, if_true, if_false, not_true_eq_false, String.reduceEq,
        Option.bind_some]
      cases registered cluster _ lists <;> rfl
  · by_cases hempty : (a.read Key.authType).value.value = "" <;> simp [hkind, hempty]

theorem resolve_resolve (a : Annotations) (cluster : ClusterView) (ns : String)
    (lists : List Userlist) :
    (resolve a cluster ns (resolve a cluster ns lists).value.2).value =
      (resolve a cluster ns lists).value := by
  simp only [value_resolve]
  cases secretName? a ns with
  | none => rfl
  | some secret =>
    simp only [Option.bind_some]
    cases h : registered cluster secret lists with
    | none => simp [h]
    | some lists' => simp [registered_registered h]

end Ingress.UserAuth
