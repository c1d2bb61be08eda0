-- How far annotations reach. A draft has only the rules that route to its backend, the routes of a
-- snapshot do not depend on annotations, and of the updates before it only the userlists come to an
-- update. Main statement: snapshots that differ only in what does not route to a backend render it
-- the same, apart from its authentication.
import Ingress.Proofs.References
import Ingress.Proofs.Related
import Mathlib.Data.List.Nodup

namespace Ingress

/-! ## Snapshots that are alike for a backend -/

variable {id : BackendId} {s t : Snapshot} {settings : Settings} {rendered : Rendered}

/-- Two resources that differ at most in their annotations, and route nothing to the backend if they
do. -/
structure Resource.AlikeFor (id : BackendId) (r r' : Resource) : Prop where
  named : r.id = r'.id
  rules : r.rules = r'.rules
  annotations : (∃ rule ∈ r.rules, r.target rule = id) → r.annotations = r'.annotations

/-- Two declarations of a backend, which are the same if it is the given one. -/
structure DeclaredBackend.AlikeFor (id : BackendId) (b b' : DeclaredBackend) : Prop where
  named : b.id = b'.id
  own : b.id = id → b = b'

/-- Two snapshots that differ at most in the annotations of resources that route nothing to the
backend, and in the protocols and endpoints of the other backends. -/
structure Snapshot.AlikeFor (id : BackendId) (s t : Snapshot) : Prop where
  resources : List.Forall₂ (Resource.AlikeFor id) s.resources t.resources
  backends : List.Forall₂ (DeclaredBackend.AlikeFor id) s.backends t.backends
  pods : s.pods = t.pods
  secrets : s.secrets = t.secrets

/-- Two rules with their resources, which are the same if they route to the backend. -/
structure Rule.AlikeFor (id : BackendId) (q q' : Resource × Rule) : Prop where
  rule : q.2 = q'.2
  target : q.1.target q.2 = q'.1.target q'.2
  own : q.1.target q.2 = id → q = q'

theorem Resource.AlikeFor.target {r r' : Resource} (h : r.AlikeFor id r') (rule : Rule) :
    r.target rule = r'.target rule := by
  unfold Resource.target
  rw [h.named]

theorem Resource.AlikeFor.route {r r' : Resource} {rule : Rule} (h : r.AlikeFor id r')
    (hrule : rule ∈ r.rules) : Rule.AlikeFor id (r, rule) (r', rule) where
  rule := rfl
  target := h.target rule
  own := by
    intro htarget
    have hannotations := h.annotations ⟨rule, hrule, htarget⟩
    have hsame : r = r' := by
      cases r
      cases r'
      rw [Resource.mk.injEq]
      exact ⟨h.named, hannotations, h.rules⟩
    rw [hsame]

/-- Routes do not depend on annotations. -/
theorem ofRules_eq_of_forall₂ {rules rules' : List (Resource × Rule)}
    (h : List.Forall₂ (Rule.AlikeFor id) rules rules') :
    RouteTable.ofRules rules = .ofRules rules' := by
  unfold RouteTable.ofRules
  generalize RouteTable.empty = table
  induction h generalizing table with
  | nil => rfl
  | cons hq _ ih => rw [List.foldl_cons, List.foldl_cons, ih, hq.target, hq.rule]

namespace Snapshot.AlikeFor

theorem cluster (h : AlikeFor id s t) : s.cluster = t.cluster := by
  unfold Snapshot.cluster
  rw [h.pods, h.secrets]

theorem ids (h : AlikeFor id s t) : s.backends.map (·.id) = t.backends.map (·.id) :=
  map_eq_of_forall₂ h.backends fun _ _ hb => hb.named

theorem routes (h : AlikeFor id s t) : List.Forall₂ (Rule.AlikeFor id) s.routes t.routes := by
  apply List.rel_flatMap h.resources
  intro r r' hr
  dsimp only
  rw [← hr.rules, List.forall₂_map_left_iff, List.forall₂_map_right_iff, List.forall₂_same]
  exact fun rule hrule => hr.route hrule

theorem ofRules (h : AlikeFor id s t) : RouteTable.ofRules s.routes = .ofRules t.routes :=
  ofRules_eq_of_forall₂ h.routes

theorem rulesFor (h : AlikeFor id s t) : s.rulesFor id = t.rulesFor id := by
  apply filter_eq_of_forall₂ h.routes
  · intro q q' hq
    rw [hq.target]
  · intro q q' hq htarget
    exact hq.own (of_decide_eq_true htarget)

theorem declared (h : AlikeFor id s t) :
    s.backends.filter (·.id = id) = t.backends.filter (·.id = id) := by
  apply filter_eq_of_forall₂ h.backends
  · intro b b' hb
    rw [hb.named]
  · intro b b' hb hid
    exact hb.own (of_decide_eq_true hid)

theorem goodReferences (h : AlikeFor id s t) (hs : s.GoodReferences) : t.GoodReferences := by
  have htargets : s.routes.map (fun q => q.1.target q.2) = t.routes.map fun q => q.1.target q.2 :=
    map_eq_of_forall₂ h.routes fun _ _ hq => hq.target
  have hknown := List.forall_mem_map.mpr hs.known
  rw [htargets, h.ids] at hknown
  refine ⟨?_, List.forall_mem_map.mp hknown⟩
  rw [← h.ids]
  exact hs.distinct

end Snapshot.AlikeFor

/-! ## Updates -/

/-- A backend apart from its authentication. -/
def Backend.apartFromAuth (b : Backend) : Backend := { b with basicAuth := none }

/-- Userlists reach nothing of a backend but its authentication. -/
theorem apartFromAuth_update (d : Draft) (cluster : ClusterView) (routes : RouteTable)
    (lists lists' : List Userlist) :
    (d.update cluster routes lists).value.1.apartFromAuth =
      (d.update cluster routes lists').value.1.apartFromAuth := by
  rw [Draft.value_update, Draft.value_update]
  rfl

/-- A rendered backend apart from its authentication is what the draft of its declaration becomes
behind no userlists. -/
theorem apartFromAuth_render {b : Backend} (h : (s.render settings).value = .ok rendered)
    (hb : b ∈ rendered.backends) : ∃ declared ∈ s.backends, declared.id = b.id ∧
      b.apartFromAuth = ((s.draft settings declared).update s.cluster
        (.ofRules s.routes) []).value.1.apartFromAuth := by
  obtain ⟨declared, hdeclared, lists, rfl⟩ := mem_render h hb
  exact ⟨declared, hdeclared, (id_draft s settings declared).symm,
    apartFromAuth_update _ _ _ lists []⟩

/-! ## The law -/

/-- Snapshots that are alike for a backend are rendered together, and the backend is the same in
both, apart from its authentication. -/
theorem annotations_reach_only_routed_backends (h : s.AlikeFor id t)
    (hs : (s.render settings).value = .ok rendered) :
    ∃ rendered', (t.render settings).value = .ok rendered' ∧
      rendered'.backends.map (·.id) = rendered.backends.map (·.id) ∧
      ∀ b ∈ rendered.backends, ∀ b' ∈ rendered'.backends, b.id = id → b'.id = id →
        b'.apartFromAuth = b.apartFromAuth := by
  have hgood := (exists_render_iff settings).mp ⟨rendered, hs⟩
  obtain ⟨rendered', ht⟩ := (exists_render_iff settings).mpr (h.goodReferences hgood)
  refine ⟨rendered', ht, ?_, ?_⟩
  · rw [ids_of_render ht, ids_of_render hs, h.ids]
  · intro b hb b' hb' hid hid'
    obtain ⟨declared, hdeclared, hown, hrendered⟩ := apartFromAuth_render hs hb
    obtain ⟨declared', hdeclared', hown', hrendered'⟩ := apartFromAuth_render ht hb'
    -- The second snapshot's declaration stands in the first one too, where no other has its id.
    have hshared : declared' ∈ s.backends.filter (·.id = id) := by
      rw [h.declared]
      exact List.mem_filter.mpr ⟨hdeclared', by simp [hown', hid']⟩
    obtain rfl : declared' = declared := List.inj_on_of_nodup_map hgood.distinct
      (List.mem_filter.mp hshared).1 hdeclared (by rw [hown', hown, hid, hid'])
    have hdraft : t.draft settings declared' = s.draft settings declared' := by
      unfold Snapshot.draft
      rw [hown', hid', h.rulesFor]
    rw [hrendered', hrendered, hdraft, ← h.cluster, ← h.ofRules]

/-- Two teams with a backend each. The second one asks for authentication against a secret that does
not exist, and the annotations of the first one are open. -/
def twoTeams (first : Table String) : Snapshot where
  resources := [
    ⟨⟨"ingress", "team", "first"⟩, first, [⟨"a.test", "/", "app", "80"⟩]⟩,
    ⟨⟨"ingress", "team_a", "second"⟩,
      .ofList [(Key.authType, "basic"), (Key.authSecret, "b"), (Key.waf, "modsecurity")],
      [⟨"b.test", "/", "app", "80"⟩]⟩]
  backends := [⟨⟨"team", "app", "80"⟩, false, []⟩, ⟨⟨"team_a", "app", "80"⟩, false, []⟩]
  pods := .empty
  secrets := .ofList [("team/a_b", .ofList [(UserAuth.usersKey, "mallory::pw")])]

/-- The first team with authentication against its own secret. -/
def guardedFirst : Table String := .ofList [(Key.authType, "basic"), (Key.authSecret, "a_b")]

/-- Authentication is an exception: by its own annotations, the first team lets the users of its
secret into the backend of the second one. Nothing else of that backend changes. -/
theorem first_team_reaches_only_authentication :
    ∃ rendered rendered', ((twoTeams .empty).render .plain).value = .ok rendered ∧
      ((twoTeams guardedFirst).render .plain).value = .ok rendered' ∧
      rendered.backends.map (·.basicAuth.isSome) = [false, false] ∧
      rendered'.backends.map (·.basicAuth.isSome) = [true, true] ∧
      ∀ b ∈ rendered.backends, ∀ b' ∈ rendered'.backends, b.id = ⟨"team_a", "app", "80"⟩ →
        b'.id = ⟨"team_a", "app", "80"⟩ → b'.apartFromAuth = b.apartFromAuth := by
  have halike : (twoTeams .empty).AlikeFor ⟨"team_a", "app", "80"⟩ (twoTeams guardedFirst) := by
    refine ⟨.cons ⟨rfl, rfl, ?_⟩ (.cons ⟨rfl, rfl, fun _ => rfl⟩ .nil),
      .cons ⟨rfl, fun _ => rfl⟩ (.cons ⟨rfl, fun _ => rfl⟩ .nil), rfl, rfl⟩
    intro hroutes
    exact absurd hroutes (by decide)
  have hopen : ((twoTeams .empty).render .plain).value.toOption.map
      (·.backends.map (·.basicAuth.isSome)) = some [false, false] := by decide
  have hguarded : ((twoTeams guardedFirst).render .plain).value.toOption.map
      (·.backends.map (·.basicAuth.isSome)) = some [true, true] := by decide
  cases hrender : ((twoTeams .empty).render .plain).value with
  | error e => rw [hrender] at hopen; cases hopen
  | ok rendered =>
    obtain ⟨rendered', hrender', -, hsame⟩ := annotations_reach_only_routed_backends halike hrender
    rw [hrender] at hopen
    rw [hrender'] at hguarded
    exact ⟨rendered, rendered', rfl, hrender', Option.some.inj hopen, Option.some.inj hguarded,
      hsame⟩

end Ingress
