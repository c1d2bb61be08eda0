-- The userlists that a pass over backends collects. A pass updates its backends in any order and
-- any number of times, each time under the annotations declared by then. Main statement: the
-- collection grows by one list of a readable secret at a time, never by a name that it has, and
-- whatever authentication was set refers to a list of it from then on.
import Ingress.Proofs.Keyed
import Ingress.Proofs.Rejection
import Ingress.Proofs.Userlists

namespace Ingress

/-! ## Passes -/

/-- The backends of a pass, and the userlists collected so far. -/
structure Pass where
  backends : List Backend
  lists : List Userlist

/-- An update of the backend at a place, with the annotations declared for it by then. -/
structure Call where
  place : Nat
  annotations : Annotations

namespace Pass

/-- A pass over backends before any update. -/
def start (backends : List Backend) : Pass := ⟨backends, []⟩

/-- The draft that a call updates, if there is a backend at its place. -/
def draft? (p : Pass) (c : Call) : Option Draft := p.backends[c.place]?.map (⟨·, c.annotations⟩)

/-- The pass behind one more call. -/
def call (cluster : ClusterView) (routes : RouteTable) (p : Pass) (c : Call) : Pass :=
  match p.draft? c with
  | none => p
  | some d =>
    let result := (d.update cluster routes p.lists).value
    ⟨p.backends.set c.place result.1, result.2⟩

/-- The pass behind calls, one after the other. -/
def run (cluster : ClusterView) (routes : RouteTable) (p : Pass) (calls : List Call) : Pass :=
  calls.foldl (call cluster routes) p

end Pass

variable {cluster : ClusterView} {routes : RouteTable} {lists : List Userlist} {d : Draft}
  {l : Userlist} {p : Pass} {c : Call} {calls : List Call}

/-! ## One update -/

/-- Whether an update can add a userlist to others: it holds the users of the draft's own secret,
under a name that is new. -/
structure Draft.Adds (cluster : ClusterView) (lists : List Userlist) (d : Draft) (l : Userlist) :
    Prop where
  own : ∃ secret, d.secretName? = some secret ∧ l.name = UserAuth.userlistName secret ∧
    UserAuth.users? cluster secret = some l.users
  new : l.name ∉ lists.map (·.name)

theorem name_mem_iff_isSome (lists : List Userlist) (name : String) :
    name ∈ lists.map (·.name) ↔ (userlist? lists name).isSome := by
  rw [mem_keys_iff_any, userlist?, List.isSome_find?]

/-- An update leaves the userlists as they were, or adds one behind them. -/
theorem listsAfter_eq_or_adds (d : Draft) (cluster : ClusterView) (lists : List Userlist) :
    d.listsAfter cluster lists = lists ∨
      ∃ l, d.Adds cluster lists l ∧ d.listsAfter cluster lists = lists ++ [l] := by
  rw [listsAfter_eq]
  cases hsecret : d.secretName? with
  | none => exact .inl rfl
  | some secret =>
    rw [Option.bind_some]
    cases hown : userlist? lists (UserAuth.userlistName secret) with
    | some own =>
      left
      rw [registered_of_isSome (by rw [hown]; rfl), Option.getD_some]
    | none =>
      rw [registered_of_eq_none hown, userlistOf?]
      cases husers : UserAuth.users? cluster secret with
      | none => exact .inl rfl
      | some users =>
        have hnew : UserAuth.userlistName secret ∉ lists.map (·.name) := by
          rw [name_mem_iff_isSome, hown]
          simp
        exact .inr ⟨⟨UserAuth.userlistName secret, users⟩,
          ⟨⟨secret, hsecret, rfl, husers⟩, hnew⟩, rfl⟩

theorem userlistName_mem_of_registered {secret : String} {lists' : List Userlist}
    (h : UserAuth.registered cluster secret lists = some lists') :
    UserAuth.userlistName secret ∈ lists'.map (·.name) := by
  unfold UserAuth.registered at h
  split at h
  · next hany =>
    rw [← Option.some.inj h, mem_keys_iff_any]
    exact hany
  · obtain ⟨users, -, rfl⟩ := Option.map_eq_some_iff.mp h
    simp

/-- An authentication that is set refers to a userlist that is there. -/
theorem userlist_mem_listsAfter {auth : BasicAuth}
    (h : d.authentication cluster lists = some auth) :
    auth.userlist ∈ (d.listsAfter cluster lists).map (·.name) := by
  rw [authentication_eq] at h
  obtain ⟨secret, hsecret, hregistered⟩ := Option.bind_eq_some_iff.mp h
  obtain ⟨lists', hlists', rfl⟩ := Option.map_eq_some_iff.mp hregistered
  rw [listsAfter_eq, hsecret, Option.bind_some, hlists', Option.getD_some]
  exact userlistName_mem_of_registered hlists'

theorem listsAfter_of_authentication_eq_none (h : d.authentication cluster lists = none) :
    d.listsAfter cluster lists = lists := by
  rw [authentication_eq] at h
  rw [listsAfter_eq]
  cases hsecret : d.secretName? with
  | none => rfl
  | some secret =>
    rw [hsecret, Option.bind_some, Option.map_eq_none_iff] at h
    rw [Option.bind_some, h, Option.getD_none]

/-- An update that refuses basic authentication leaves the userlists as they were. -/
theorem listsAfter_of_rejections (h : 0 < (d.update cluster routes lists).rejections .basicAuth) :
    d.listsAfter cluster lists = lists := by
  apply listsAfter_of_authentication_eq_none
  rw [Draft.rejections_basicAuth] at h
  split at h
  · omega
  · next hset =>
    rw [not_or, Bool.not_eq_true, Option.isSome_eq_false_iff, Option.isNone_iff_eq_none] at hset
    exact hset.2

/-! ## One call -/

namespace Pass

theorem call_of_draft?_eq_none (h : p.draft? c = none) : p.call cluster routes c = p := by
  unfold call
  rw [h]

theorem call_of_draft?_eq_some (h : p.draft? c = some d) : p.call cluster routes c =
    ⟨p.backends.set c.place (d.update cluster routes p.lists).value.1,
      d.listsAfter cluster p.lists⟩ := by
  unfold call
  rw [h]
  rfl

theorem backend_mem_of_draft? (h : p.draft? c = some d) : d.backend ∈ p.backends := by
  obtain ⟨b, hb, rfl⟩ := Option.map_eq_some_iff.mp h
  exact List.mem_of_getElem? hb

theorem lists_call (cluster : ClusterView) (routes : RouteTable) (p : Pass) (c : Call) :
    (p.call cluster routes c).lists = p.lists ∨ ∃ d l, p.draft? c = some d ∧
      d.Adds cluster p.lists l ∧ (p.call cluster routes c).lists = p.lists ++ [l] := by
  cases hdraft : p.draft? c with
  | none =>
    left
    rw [call_of_draft?_eq_none hdraft]
  | some d =>
    rw [call_of_draft?_eq_some hdraft]
    rcases listsAfter_eq_or_adds d cluster p.lists with hkept | ⟨l, hadds, hadded⟩
    · exact .inl hkept
    · exact .inr ⟨d, l, rfl, hadds, hadded⟩

theorem lists_prefix_call (cluster : ClusterView) (routes : RouteTable) (p : Pass) (c : Call) :
    p.lists <+: (p.call cluster routes c).lists := by
  rcases lists_call cluster routes p c with hkept | ⟨d, l, -, -, hadded⟩
  · simp only [hkept, List.prefix_refl]
  · rw [hadded]
    exact List.prefix_append _ _

theorem nodup_call (h : (p.lists.map (·.name)).Nodup) :
    ((p.call cluster routes c).lists.map (·.name)).Nodup := by
  rcases lists_call cluster routes p c with hkept | ⟨d, l, -, hadds, hadded⟩
  · rw [hkept]
    exact h
  · rw [hadded]
    exact nodup_keys_append h hadds.new

/-- Whether every authentication of a pass refers to a userlist that is collected. -/
def Referred (p : Pass) : Prop :=
  ∀ b ∈ p.backends, ∀ auth, b.basicAuth = some auth → auth.userlist ∈ p.lists.map (·.name)

theorem referred_call (h : p.Referred) : (p.call cluster routes c).Referred := by
  have hkeep : ∀ name ∈ p.lists.map (·.name),
      name ∈ (p.call cluster routes c).lists.map (·.name) :=
    fun name hname => ((lists_prefix_call cluster routes p c).map _).subset hname
  cases hdraft : p.draft? c with
  | none =>
    rw [call_of_draft?_eq_none hdraft]
    exact h
  | some d =>
    rw [call_of_draft?_eq_some hdraft] at hkeep ⊢
    intro b hb auth hauth
    rcases List.mem_or_eq_of_mem_set hb with hold | rfl
    · exact hkeep _ (h b hold auth hauth)
    · -- The updated backend has a new authentication, or still the one it had.
      rw [Draft.value_update] at hauth
      cases hset : d.authentication cluster p.lists with
      | some new =>
        rw [hset] at hauth
        obtain rfl := Option.some.inj hauth
        exact userlist_mem_listsAfter hset
      | none =>
        rw [hset] at hauth
        exact hkeep _ (h _ (backend_mem_of_draft? hdraft) auth hauth)

/-! ## All calls -/

theorem run_append (p : Pass) (calls more : List Call) :
    p.run cluster routes (calls ++ more) = (p.run cluster routes calls).run cluster routes more :=
  List.foldl_append

theorem lists_prefix_run (p : Pass) (calls : List Call) :
    p.lists <+: (p.run cluster routes calls).lists := by
  induction calls generalizing p with
  | nil => exact List.prefix_refl _
  | cons c calls ih => exact (lists_prefix_call cluster routes p c).trans (ih _)

theorem nodup_run (h : (p.lists.map (·.name)).Nodup) (calls : List Call) :
    ((p.run cluster routes calls).lists.map (·.name)).Nodup := by
  induction calls generalizing p with
  | nil => exact h
  | cons c calls ih => exact ih (nodup_call h)

theorem referred_run (h : p.Referred) (calls : List Call) :
    (p.run cluster routes calls).Referred := by
  induction calls generalizing p with
  | nil => exact h
  | cons c calls ih => exact ih (referred_call h)

/-- Whether a userlist was added by one of the calls, for the backend at its place. -/
def AddedBy (cluster : ClusterView) (routes : RouteTable) (p : Pass) (calls : List Call)
    (l : Userlist) : Prop :=
  ∃ before c after d, calls = before ++ c :: after ∧
    (p.run cluster routes before).draft? c = some d ∧
    d.Adds cluster (p.run cluster routes before).lists l ∧
    (p.run cluster routes (before ++ [c])).lists = (p.run cluster routes before).lists ++ [l]

theorem addedBy_of_mem_run (h : l ∈ (p.run cluster routes calls).lists) :
    l ∈ p.lists ∨ p.AddedBy cluster routes calls l := by
  induction calls generalizing p with
  | nil => exact .inl h
  | cons c calls ih =>
    -- A list of the whole run was there behind the first call, or a later call added it.
    rcases ih h with hmem | ⟨before, c', after, d, rfl, hdraft, hadds, hadded⟩
    · rcases lists_call cluster routes p c with hkept | ⟨d, l', hdraft, hadds, hadded⟩
      · rw [hkept] at hmem
        exact .inl hmem
      · rw [hadded, List.mem_append, List.mem_singleton] at hmem
        rcases hmem with hold | rfl
        · exact .inl hold
        · exact .inr ⟨[], c, calls, d, rfl, hdraft, hadds, hadded⟩
    · exact .inr ⟨c :: before, c', after, d, rfl, hdraft, hadds, hadded⟩

/-! ## The law -/

/-- What holds of the userlists behind the calls of a pass. -/
structure Collected (cluster : ClusterView) (routes : RouteTable) (p : Pass) (calls : List Call) :
    Prop where
  distinct : ((p.run cluster routes calls).lists.map (·.name)).Nodup
  grows : ∀ c, ∃ new, new.length ≤ 1 ∧
    (p.run cluster routes (calls ++ [c])).lists = (p.run cluster routes calls).lists ++ new
  refused : ∀ c d, (p.run cluster routes calls).draft? c = some d →
    0 < (d.update cluster routes (p.run cluster routes calls).lists).rejections .basicAuth →
    (p.run cluster routes (calls ++ [c])).lists = (p.run cluster routes calls).lists
  added : ∀ l ∈ (p.run cluster routes calls).lists, p.AddedBy cluster routes calls l
  referred : (∀ b ∈ p.backends, b.basicAuth = none) →
    ∀ more, ∀ b ∈ (p.run cluster routes calls).backends, ∀ auth, b.basicAuth = some auth →
      ∃ l ∈ (p.run cluster routes (calls ++ more)).lists, l.name = auth.userlist

/-- The userlists of a pass have distinct names, are never changed or moved, come one at a time from
the secrets of updated backends, and stay as long as a backend refers to them. -/
theorem userlists_are_collected_once (cluster : ClusterView) (routes : RouteTable)
    (backends : List Backend) (calls : List Call) :
    Collected cluster routes (start backends) calls where
  distinct := nodup_run (by simp [start]) calls
  grows := by
    intro c
    rw [run_append]
    rcases lists_call cluster routes ((start backends).run cluster routes calls) c with
      hkept | ⟨d, l, -, -, hadded⟩
    · exact ⟨[], by simp, by rw [List.append_nil]; exact hkept⟩
    · exact ⟨[l], by simp, hadded⟩
  refused := by
    intro c d hdraft hrefused
    have hcall : (((start backends).run cluster routes calls).call cluster routes c).lists =
        d.listsAfter cluster ((start backends).run cluster routes calls).lists := by
      rw [call_of_draft?_eq_some hdraft]
    rw [run_append]
    exact hcall.trans (listsAfter_of_rejections hrefused)
  added := by
    intro l hl
    rcases addedBy_of_mem_run hl with hstart | hadded
    · cases hstart
    · exact hadded
  referred := by
    intro hnone more b hb auth hauth
    have hstart : (start backends).Referred := by
      intro b hb auth hauth
      rw [hnone b hb] at hauth
      cases hauth
    have hname := referred_run hstart calls b hb auth hauth
    rw [run_append]
    exact List.mem_map.mp (((lists_prefix_run _ more).map _).subset hname)

end Pass

end Ingress
