-- Where the references to an OAuth proxy lead. A proxy is looked up in the namespace of the
-- resource that asks for it, and only resources of a backend's own namespace route to it. Main
-- statement: in every rendered snapshot, the proxy that a backend refers to is a rendered backend
-- of the same namespace, and the first rule for its host and path routes to it.
import Ingress.Proofs.FirstDeclaration
import Ingress.Proofs.References
import Ingress.Proofs.RouteHistory

namespace Ingress

variable {s : Snapshot} {settings : Settings} {rendered : Rendered}

/-! ## The routes of rules -/

/-- The table of rules is what linking them one after the other fills. -/
theorem ofRules_eq_ofCalls (rules : List (Resource × Rule)) : RouteTable.ofRules rules =
    .ofCalls (rules.map fun r => .link r.2.host r.2.path (r.1.target r.2)) := by
  rw [RouteTable.ofCalls, List.foldl_map]
  rfl

theorem distinct_ofRules (rules : List (Resource × Rule)) :
    (RouteTable.ofRules rules).Distinct := by
  rw [ofRules_eq_ofCalls]
  exact RouteTable.distinct_ofCalls _

/-- Whether a rule is for a path of a host. -/
def Rule.isFor (rule : Rule) (host path : String) : Bool := host = rule.host && path = rule.path

theorem Rule.isFor_iff {rule : Rule} {host path : String} :
    rule.isFor host path = true ↔ host = rule.host ∧ path = rule.path := by
  rw [isFor, Bool.and_eq_true, decide_eq_true_eq, decide_eq_true_eq]

/-- A path of a host leads to the backend of the first rule for it. -/
theorem backendAt?_ofRules (rules : List (Resource × Rule)) (host path : String) :
    (RouteTable.ofRules rules).backendAt? host path =
      (rules.find? (·.2.isFor host path)).map fun r => r.1.target r.2 := by
  rw [ofRules_eq_ofCalls, RouteTable.backendAt?_ofCalls, RouteTable.firstLink?, List.findSome?_map]
  induction rules with
  | nil => rfl
  | cons r rules ih =>
    rw [List.findSome?_cons, List.find?_cons, Function.comp_apply, RouteCall.backendFor?]
    cases hr : r.2.isFor host path with
    | true => rw [if_pos (Rule.isFor_iff.mp hr)]; rfl
    | false =>
      rw [if_neg fun hown => Bool.false_ne_true (hr.symm.trans (Rule.isFor_iff.mpr hown))]
      exact ih

/-! ## The proxy of a backend -/

theorem ExternalAuth.lookup_of_resolve {a : Annotations} {routes : RouteTable} {ns : String}
    {o : OAuth} (h : (resolve a routes ns).value = some o) :
    ∃ id, routes.find? (((a.read Key.oauth).value.origin.map (·.ns)).getD ns) o.uriPrefix =
      some id ∧ o.backendName = id.text := by
  unfold resolve at h
  simp only [Logged.value_bind] at h
  split at h
  · cases h
  · split at h
    · cases h
    · unfold viaProxy at h
      simp only [Logged.value_bind] at h
      split at h
      · cases h
      · next id hid =>
        obtain rfl := Option.some.inj h
        exact ⟨id, hid, rfl⟩

theorem origin_read (a : Annotations) (key : String) :
    (a.read key).value.origin = (a.declared.canonical? key).map (·.source) := by
  unfold Annotations.read
  cases a.declared.canonical? key with
  | none => rfl
  | some first =>
    dsimp only
    split <;> rfl

/-- Every resource that declares something for a backend is of the backend's namespace. -/
theorem ns_of_origin_draft (s : Snapshot) (settings : Settings) (b : DeclaredBackend)
    (key : String) :
    ((((s.draft settings b).annotations.read key).value.origin.map (·.ns)).getD b.id.ns) =
      b.id.ns := by
  rw [origin_read, (declaredBy_draft settings s b).canonical]
  cases hfirst : (s.rulesFor b.id).findSome? (settings.declaration? key) with
  | none => rfl
  | some e =>
    obtain ⟨r, hr, hdeclares⟩ := List.exists_of_findSome?_eq_some hfirst
    obtain ⟨value, -, rfl⟩ := Option.map_eq_some_iff.mp hdeclares
    exact congrArg BackendId.ns (of_decide_eq_true (List.mem_filter.mp hr).2)

/-- A rendered backend has the proxy that its annotations resolve to. -/
theorem oauth_of_update {b : DeclaredBackend} {cluster : ClusterView} {routes : RouteTable}
    {lists : List Userlist} {o : OAuth}
    (h : ((s.draft settings b).update cluster routes lists).value.1.oauth = some o) :
    (ExternalAuth.resolve (s.draft settings b).annotations routes b.id.ns).value = some o := by
  have hbare : (s.draft settings b).backend.oauth = none := by
    rw [backend_draft]
    rfl
  rw [Draft.value_update] at h
  dsimp only at h
  rw [hbare, id_draft] at h
  cases hset : (ExternalAuth.resolve (s.draft settings b).annotations routes b.id.ns).value with
  | none =>
    rw [hset] at h
    cases h
  | some new =>
    rw [hset] at h
    exact h

/-! ## The law -/

/-- The first rule for a host and a path, and the hostpath that it gives to a rendered backend. -/
theorem first_rule_of_backendAt? {host path : String} {id : BackendId}
    (h : (s.render settings).value = .ok rendered)
    (hat : (RouteTable.ofRules s.routes).backendAt? host path = some id) :
    ∃ d ∈ rendered.backends, d.id = id ∧ ∃ before r after, s.routes = before ++ r :: after ∧
      r.1.target r.2 = id ∧ r.2.host = host ∧ r.2.path = path ∧
      (∀ q ∈ before, ¬(q.2.host = host ∧ q.2.path = path)) ∧
      host ++ path ∈ d.paths.hostpaths := by
  rw [backendAt?_ofRules] at hat
  obtain ⟨r, hfirst, rfl⟩ := Option.map_eq_some_iff.mp hat
  obtain ⟨hfor, before, after, hsplit, hearlier⟩ := List.find?_eq_some_iff_append.mp hfirst
  obtain ⟨rfl, rfl⟩ := Rule.isFor_iff.mp hfor
  have hr : r ∈ s.routes := List.mem_of_find?_eq_some hfirst
  -- The target is declared, since the snapshot is not refused, so it is rendered.
  have hknown := ((exists_render_iff settings).mp ⟨rendered, h⟩).known r hr
  rw [← ids_of_render h] at hknown
  obtain ⟨d, hd, hid⟩ := List.mem_map.mp hknown
  refine ⟨d, hd, hid, before, r, after, hsplit, rfl, rfl, rfl, ?_, ?_⟩
  · intro q hq hsame
    have hnot := hearlier q hq
    rw [Rule.isFor_iff.mpr ⟨hsame.1.symm, hsame.2.symm⟩] at hnot
    cases hnot
  · obtain ⟨declared, -, lists, rfl⟩ := mem_render h hd
    have htarget : r.1.target r.2 = declared.id := hid.symm.trans (id_draft s settings declared)
    apply mem_hostpaths_attachAll.mpr
    exact .inr ⟨r, List.mem_filter.mpr ⟨hr, by simp [htarget]⟩, rfl⟩

/-- The OAuth proxy that a rendered backend refers to is a rendered backend of its own namespace, to
which the first rule for its path on some host routes. -/
theorem oauth_leads_to_a_rendered_backend {b : Backend} {o : OAuth}
    (h : (s.render settings).value = .ok rendered) (hb : b ∈ rendered.backends)
    (ho : b.oauth = some o) :
    ∃ d ∈ rendered.backends, o.backendName = d.id.text ∧ d.id.ns = b.id.ns ∧
      ∃ before r after, s.routes = before ++ r :: after ∧ r.1.target r.2 = d.id ∧
        r.2.path = o.uriPrefix ∧
        (∀ q ∈ before, ¬(q.2.host = r.2.host ∧ q.2.path = r.2.path)) ∧
        r.2.host ++ o.uriPrefix ∈ d.paths.hostpaths := by
  obtain ⟨declared, -, lists, rfl⟩ := mem_render h hb
  obtain ⟨id, hfind, hname⟩ := ExternalAuth.lookup_of_resolve (oauth_of_update ho)
  rw [ns_of_origin_draft] at hfind
  obtain ⟨hns, host, hat⟩ :=
    RouteTable.backendAt?_of_find? _ (distinct_ofRules s.routes) hfind
  obtain ⟨d, hd, rfl, before, r, after, hsplit, htarget, rfl, hpath, hearlier, hhostpath⟩ :=
    first_rule_of_backendAt? h hat
  refine ⟨d, hd, hname, ?_, before, r, after, hsplit, htarget, hpath, ?_, hhostpath⟩
  · exact hns.trans (congrArg BackendId.ns (id_draft s settings declared)).symm
  · rw [hpath]
    exact hearlier

/-- A shop behind a proxy, both routed by one resource. -/
def shopBehindProxy : Snapshot where
  resources := [⟨⟨"ingress", "shop", "front"⟩, .ofList [(Key.oauth, "oauth2_proxy")],
    [⟨"a.test", "/", "web", "80"⟩, ⟨"a.test", "/oauth2", "proxy", "4180"⟩]⟩]
  backends := [⟨⟨"shop", "web", "80"⟩, false, []⟩, ⟨⟨"shop", "proxy", "4180"⟩, false, []⟩]
  pods := .empty
  secrets := .empty

theorem shop_asks_its_proxy : ∃ rendered, (shopBehindProxy.render .plain).value = .ok rendered ∧
    ∃ b ∈ rendered.backends, ∃ o, b.oauth = some o ∧
      ∃ d ∈ rendered.backends, o.backendName = d.id.text ∧ d.id.ns = b.id.ns ∧
        ∃ r ∈ shopBehindProxy.routes, r.1.target r.2 = d.id ∧
          r.2.host ++ o.uriPrefix ∈ d.paths.hostpaths := by
  have hasks : (match (shopBehindProxy.render .plain).value with
    | .ok rendered => rendered.backends.any (·.oauth.isSome)
    | .error _ => false) = true := by decide
  cases hrender : (shopBehindProxy.render .plain).value with
  | error e => rw [hrender] at hasks; cases hasks
  | ok rendered =>
    rw [hrender] at hasks
    obtain ⟨b, hb, hset⟩ := List.any_eq_true.mp hasks
    obtain ⟨o, ho⟩ := Option.isSome_iff_exists.mp hset
    obtain ⟨d, hd, hname, hns, before, r, after, hsplit, htarget, -, -, hhostpath⟩ :=
      oauth_leads_to_a_rendered_backend hrender hb ho
    refine ⟨rendered, rfl, b, hb, o, ho, d, hd, hname, hns, r, ?_, htarget, hhostpath⟩
    rw [hsplit]
    exact List.mem_append_right _ List.mem_cons_self

end Ingress
