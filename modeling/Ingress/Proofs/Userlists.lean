-- The userlists behind a history of updates, and whose users a backend gets. A name is registered
-- by the first secret of this name that can be read, and the names of different secrets may be the
-- same. Main statement: a backend gets the users of its own secret exactly if the secret that
-- registered the name holds the same ones.
import Ingress.Proofs.Update

namespace Ingress

/-! ## Histories -/

/-- The userlists behind updates of drafts, one after the other. A draft may come again, as earlier
updates left it. -/
def listsBehind (cluster : ClusterView) (routes : RouteTable) (history : List Draft) :
    List Userlist :=
  history.foldl (fun lists d => (d.update cluster routes lists).value.2) []

/-- The userlist of a name. -/
def userlist? (lists : List Userlist) (name : String) : Option Userlist :=
  lists.find? (·.name = name)

/-- The secret that a draft authenticates against. -/
def Draft.secretName? (d : Draft) : Option String :=
  UserAuth.secretName? d.annotations d.backend.id.ns

/-- Whether a secret registers a userlist of a name if it is the first to do so. -/
def registers (cluster : ClusterView) (name secret : String) : Bool :=
  decide (UserAuth.userlistName secret = name) && (UserAuth.users? cluster secret).isSome

/-- The secret that registers a name in a history. -/
def registrant? (cluster : ClusterView) (history : List Draft) (name : String) : Option String :=
  (history.filterMap (·.secretName?)).find? (registers cluster name)

/-- The userlist that a secret gives to a name. -/
def userlistOf? (cluster : ClusterView) (name secret : String) : Option Userlist :=
  (UserAuth.users? cluster secret).map fun users => ⟨name, users⟩

variable {cluster : ClusterView} {routes : RouteTable} {lists : List Userlist}
  {history : List Draft} {name secret : String} {d : Draft}

/-! ## One update -/

theorem any_name_eq_isSome (lists : List Userlist) (name : String) :
    lists.any (·.name = name) = (userlist? lists name).isSome := List.isSome_find?.symm

theorem registered_of_isSome (h : (userlist? lists (UserAuth.userlistName secret)).isSome) :
    UserAuth.registered cluster secret lists = some lists := by
  rw [UserAuth.registered, any_name_eq_isSome, h, if_pos rfl]

theorem registered_of_eq_none (h : userlist? lists (UserAuth.userlistName secret) = none) :
    UserAuth.registered cluster secret lists =
      (userlistOf? cluster (UserAuth.userlistName secret) secret).map (lists ++ [·]) := by
  rw [UserAuth.registered, any_name_eq_isSome, h, if_neg (by simp), userlistOf?, Option.map_map]
  rfl

theorem authentication_eq (d : Draft) (cluster : ClusterView) (lists : List Userlist) :
    d.authentication cluster lists = d.secretName?.bind fun secret =>
      (UserAuth.registered cluster secret lists).map fun _ =>
        UserAuth.against d.annotations secret := by
  unfold Draft.authentication Draft.secretName?
  rw [UserAuth.value_resolve]
  simp only [Option.map_bind, Function.comp_def, Option.map_map]

theorem listsAfter_eq (d : Draft) (cluster : ClusterView) (lists : List Userlist) :
    d.listsAfter cluster lists = (d.secretName?.bind fun secret =>
      UserAuth.registered cluster secret lists).getD lists := by
  unfold Draft.listsAfter Draft.secretName?
  rw [UserAuth.value_resolve]
  simp only [Option.map_bind, Function.comp_def, Option.map_map, Option.map_id']

/-- An update keeps every userlist, and adds the one of its own secret if the name is new. -/
theorem userlist?_listsAfter (d : Draft) (cluster : ClusterView) (lists : List Userlist)
    (name : String) :
    userlist? (d.listsAfter cluster lists) name = (userlist? lists name).or
      ((d.secretName?.filter (registers cluster name)).bind (userlistOf? cluster name)) := by
  rw [listsAfter_eq]
  cases d.secretName? with
  | none => simp
  | some secret =>
    cases hown : userlist? lists (UserAuth.userlistName secret) with
    | some own =>
      rw [Option.bind_some, registered_of_isSome (by rw [hown]; rfl), Option.getD_some]
      by_cases hname : UserAuth.userlistName secret = name
      · rw [← hname, hown, Option.some_or]
      · simp [Option.filter, registers, hname]
    | none =>
      rw [Option.bind_some, registered_of_eq_none hown]
      cases husers : UserAuth.users? cluster secret with
      | none => simp [Option.filter, registers, userlistOf?, husers]
      | some users =>
        by_cases hname : UserAuth.userlistName secret = name
        · subst hname
          simp_all [Option.filter, registers, userlistOf?, userlist?]
        · simp [Option.filter, registers, userlistOf?, userlist?, husers, hname]

/-! ## All updates -/

theorem registrant?_cons (d : Draft) (cluster : ClusterView) (history : List Draft)
    (name : String) :
    registrant? cluster (d :: history) name =
      (d.secretName?.filter (registers cluster name)).or (registrant? cluster history name) := by
  unfold registrant?
  cases hsecret : d.secretName? with
  | none => simp [hsecret]
  | some secret =>
    rw [List.filterMap_cons_some hsecret, List.find?_cons]
    cases hreg : registers cluster name secret <;> simp [Option.filter, hreg]

/-- What is found behind updates was there before, or is what the registrant put there. -/
theorem userlist?_foldl (cluster : ClusterView) (routes : RouteTable) (history : List Draft)
    (lists : List Userlist) (name : String) :
    userlist? (history.foldl (fun lists d => (d.update cluster routes lists).value.2) lists) name =
      (userlist? lists name).or
        ((registrant? cluster history name).bind (userlistOf? cluster name)) := by
  induction history generalizing lists with
  | nil => simp [registrant?]
  | cons d history ih =>
    -- The first draft that can register the name does so, and later ones find the name taken.
    have hstep : (d.update cluster routes lists).value.2 = d.listsAfter cluster lists := rfl
    rw [List.foldl_cons, ih, hstep, userlist?_listsAfter, Option.or_assoc, registrant?_cons]
    cases hfirst : d.secretName?.filter (registers cluster name) with
    | none => rfl
    | some secret =>
      have hreg : registers cluster name secret = true := (Option.filter_eq_some_iff.mp hfirst).2
      obtain ⟨users, husers⟩ : ∃ users, UserAuth.users? cluster secret = some users :=
        Option.isSome_iff_exists.mp (by simp_all [registers])
      simp [userlistOf?, husers]

/-- A name has the users of the secret that registered it. -/
theorem userlist?_listsBehind (cluster : ClusterView) (routes : RouteTable)
    (history : List Draft) (name : String) :
    userlist? (listsBehind cluster routes history) name =
      (registrant? cluster history name).bind (userlistOf? cluster name) :=
  userlist?_foldl cluster routes history [] name

theorem users?_of_registrant? {first : String}
    (h : registrant? cluster history name = some first) :
    UserAuth.userlistName first = name ∧ ∃ users, UserAuth.users? cluster first = some users := by
  have hreg := List.find?_some h
  rw [registers, Bool.and_eq_true, decide_eq_true_eq, Option.isSome_iff_exists] at hreg
  exact hreg

/-! ## Isolation -/

/-- What a backend may expect of an update behind a history: if it gets an authentication, the
userlist of that name holds the users of its own secret, and if its own secret cannot be read, it
gets none. -/
structure Isolated (cluster : ClusterView) (routes : RouteTable) (history : List Draft)
    (d : Draft) : Prop where
  own_users : ∀ auth, d.authentication cluster (listsBehind cluster routes history) = some auth →
    ∃ secret users, d.secretName? = some secret ∧ UserAuth.users? cluster secret = some users ∧
      userlist? (d.update cluster routes (listsBehind cluster routes history)).value.2
        auth.userlist = some ⟨auth.userlist, users⟩
  none_unread : (∀ secret, d.secretName? = some secret → UserAuth.users? cluster secret = none) →
    d.authentication cluster (listsBehind cluster routes history) = none

/-- Behind a registrant a backend gets the registrant's users, whatever its own secret holds. -/
theorem update_of_registrant? (routes : RouteTable) {first : String} {users : List User}
    (hsecret : d.secretName? = some secret)
    (hfirst : registrant? cluster history (UserAuth.userlistName secret) = some first)
    (husers : UserAuth.users? cluster first = some users) :
    d.authentication cluster (listsBehind cluster routes history) =
        some (UserAuth.against d.annotations secret) ∧
      userlist? (d.update cluster routes (listsBehind cluster routes history)).value.2
        (UserAuth.userlistName secret) = some ⟨UserAuth.userlistName secret, users⟩ := by
  have hfound : userlist? (listsBehind cluster routes history) (UserAuth.userlistName secret) =
      some ⟨UserAuth.userlistName secret, users⟩ := by
    rw [userlist?_listsBehind, hfirst, Option.bind_some, userlistOf?, husers, Option.map_some]
  constructor
  · rw [authentication_eq, hsecret, Option.bind_some, registered_of_isSome (by rw [hfound]; rfl),
      Option.map_some]
  · rw [Draft.value_update, userlist?_listsAfter, hfound, Option.some_or]

/-- A backend whose name is new gets the users of its own secret, or nothing. -/
theorem update_of_registrant?_eq_none (routes : RouteTable)
    (hsecret : d.secretName? = some secret)
    (hfirst : registrant? cluster history (UserAuth.userlistName secret) = none) :
    d.authentication cluster (listsBehind cluster routes history) =
        (UserAuth.users? cluster secret).map (fun _ => UserAuth.against d.annotations secret) ∧
      userlist? (d.update cluster routes (listsBehind cluster routes history)).value.2
        (UserAuth.userlistName secret) =
        (UserAuth.users? cluster secret).map (⟨UserAuth.userlistName secret, ·⟩) := by
  have hfound : userlist? (listsBehind cluster routes history) (UserAuth.userlistName secret) =
      none := by
    rw [userlist?_listsBehind, hfirst, Option.bind_none]
  constructor
  · rw [authentication_eq, hsecret, Option.bind_some, registered_of_eq_none hfound, Option.map_map,
      userlistOf?, Option.map_map]
    rfl
  · rw [Draft.value_update, userlist?_listsAfter, hfound, Option.none_or, hsecret]
    cases husers : UserAuth.users? cluster secret <;>
      simp [Option.filter, registers, userlistOf?, husers]

theorem authentication_of_secretName?_eq_none (cluster : ClusterView) (lists : List Userlist)
    (h : d.secretName? = none) : d.authentication cluster lists = none := by
  rw [authentication_eq, h, Option.bind_none]

theorem users?_eq_of_isolated {first : String} (h : Isolated cluster routes history d)
    (hsecret : d.secretName? = some secret)
    (hfirst : registrant? cluster history (UserAuth.userlistName secret) = some first) :
    UserAuth.users? cluster first = UserAuth.users? cluster secret := by
  obtain ⟨-, users, husers⟩ := users?_of_registrant? hfirst
  obtain ⟨hauth, hlist⟩ := update_of_registrant? routes hsecret hfirst husers
  obtain ⟨own, ownUsers, hown, hownUsers, hownList⟩ := h.own_users _ hauth
  obtain rfl : own = secret := Option.some.inj (hown.symm.trans hsecret)
  have hsame := hownList.symm.trans hlist
  simp only [Option.some.injEq, Userlist.mk.injEq, true_and, UserAuth.against] at hsame
  rw [husers, hownUsers, hsame]

theorem isolated_of_users?_eq (h : ∀ secret first, d.secretName? = some secret →
    registrant? cluster history (UserAuth.userlistName secret) = some first →
    UserAuth.users? cluster first = UserAuth.users? cluster secret) :
    Isolated cluster routes history d := by
  cases hsecret : d.secretName? with
  | none =>
    have hnone := authentication_of_secretName?_eq_none cluster
      (listsBehind cluster routes history) hsecret
    refine ⟨fun auth hauth => ?_, fun _ => hnone⟩
    rw [hnone] at hauth
    cases hauth
  | some secret =>
    cases hfirst : registrant? cluster history (UserAuth.userlistName secret) with
    | some first =>
      obtain ⟨-, users, husers⟩ := users?_of_registrant? hfirst
      have hown := (h secret first hsecret hfirst).symm.trans husers
      obtain ⟨hauth, hlist⟩ := update_of_registrant? routes hsecret hfirst husers
      refine ⟨fun auth h' => ?_, fun hunread => ?_⟩
      · obtain rfl := Option.some.inj (hauth.symm.trans h')
        exact ⟨secret, users, hsecret, hown, hlist⟩
      · rw [hunread secret hsecret] at hown
        cases hown
    | none =>
      obtain ⟨hauth, hlist⟩ := update_of_registrant?_eq_none routes hsecret hfirst
      refine ⟨fun auth h' => ?_, fun hunread => ?_⟩
      · obtain ⟨users, husers, rfl⟩ := Option.map_eq_some_iff.mp (hauth.symm.trans h')
        exact ⟨secret, users, hsecret, husers, by rw [husers] at hlist; exact hlist⟩
      · rw [hauth, hunread secret hsecret, Option.map_none]

/-- A backend is isolated from the history before it exactly if the secret that registered the name
of its userlist, if there is one, holds the same users as its own. -/
theorem isolated_iff_registrant_holds_same_users (cluster : ClusterView) (routes : RouteTable)
    (history : List Draft) (d : Draft) :
    Isolated cluster routes history d ↔ ∀ secret first, d.secretName? = some secret →
      registrant? cluster history (UserAuth.userlistName secret) = some first →
      UserAuth.users? cluster first = UserAuth.users? cluster secret :=
  ⟨fun h _ _ => users?_eq_of_isolated h, isolated_of_users?_eq⟩

/-- A secret of one team, whose name becomes the one of another team's secret. -/
def mallorysSecret : Cluster :=
  Cluster.empty.addSecret "team/a_b" UserAuth.usersKey (Text.utf8Encode "mallory::pw")

/-- A draft in a namespace that asks for basic authentication against a secret. -/
def authDraft (ns secret : String) : Draft where
  backend := Backend.bare ⟨ns, "app", "80"⟩ false []
  annotations :=
    ⟨Settings.plain,
      (Declarations.empty.add ⟨Key.authType, ⟨"ingress", ns, "ing"⟩, "/", "basic"⟩).add
        ⟨Key.authSecret, ⟨"ingress", ns, "ing"⟩, "/", secret⟩⟩

/-- The secrets `team/a_b` and `team_a/b` give their userlists one name. Behind a backend with the
first one, a backend with the second one lets in the first one's users, though its own secret does
not exist. -/
theorem not_isolated_behind_same_name :
    ¬Isolated mallorysSecret .empty [authDraft "team" "a_b"] (authDraft "team_a" "b") := by
  intro h
  have hsecret : (authDraft "team_a" "b").secretName? = some "team_a/b" := by decide
  have hnone := h.none_unread fun secret hs => by
    obtain rfl := Option.some.inj (hsecret.symm.trans hs)
    decide
  exact absurd hnone (by decide)

/-! ## Names without underscores -/

/-- Names are told apart by their userlists if they have no underscore of their own. -/
theorem eq_of_map_slash {s t : List Char} (hs : '_' ∉ s) (ht : '_' ∉ t)
    (h : (s.map fun c => if c = '/' then '_' else c) = t.map fun c => if c = '/' then '_' else c) :
    s = t := by
  induction s generalizing t with
  | nil => exact (List.map_eq_nil_iff.mp h.symm).symm
  | cons a s ih =>
    cases t with
    | nil => cases h
    | cons b t =>
      simp only [List.mem_cons, not_or, List.map_cons, List.cons.injEq] at hs ht h
      rw [ih hs.2 ht.2 h.2]
      have hab : a = b := by grind
      rw [hab]

/-- No backend is let in by another one's secret as long as no secret has an underscore in its name
or namespace. -/
theorem isolated_of_no_underscore
    (h : ∀ secret ∈ (history ++ [d]).filterMap (·.secretName?), '_' ∉ secret.toList) :
    Isolated cluster routes history d := by
  refine isolated_of_users?_eq fun secret first hsecret hfirst => ?_
  have hmem : first ∈ history.filterMap (·.secretName?) := List.mem_of_find?_eq_some hfirst
  have hname := congrArg String.toList (users?_of_registrant? hfirst).1
  simp only [UserAuth.userlistName, String.toList_ofList] at hname
  have hsame : first = secret := by
    apply String.toList_injective
    apply eq_of_map_slash (h first _) (h secret _) hname
    · simp [List.filterMap_append, hmem]
    · simp [List.filterMap_append, hsecret]
  rw [hsame]

end Ingress
