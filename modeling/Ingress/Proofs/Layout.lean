-- The layout of a snapshot in closed form. Main statement: there is one draft for each declared
-- backend, with exactly the rules attached that route to it, in the order of the document.
import Ingress.Proofs.Declarations
import Ingress.Proofs.Keyed
import Ingress.Proofs.Outcome
import Ingress.Proofs.RoutedPaths
import Ingress.Snapshot.Render

namespace Ingress

/-! ## Rules -/

/-- The annotations of a rule's resource that carry the prefix of the settings. -/
def Settings.ownOf (settings : Settings) (r : Resource × Rule) : Table String :=
  ownAnnotations settings.keyPrefix r.1.annotations

/-- What a rule declares for a key, if its resource carries it. -/
def Settings.declaration? (settings : Settings) (key : String) (r : Resource × Rule) :
    Option Declaration :=
  ((settings.ownOf r).find? key).map fun value => ⟨key, r.1.id, r.2.hostpath, value⟩

/-- What a rule declares, by key. -/
def Settings.declarations (settings : Settings) (r : Resource × Rule) : List Declaration :=
  (settings.ownOf r).entries.map fun (key, value) => ⟨key, r.1.id, r.2.hostpath, value⟩

/-- A draft with rules attached, one after the other. -/
def Draft.attachAll (settings : Settings) (rules : List (Resource × Rule)) (d : Draft) : Draft :=
  rules.foldl (fun d r => Layout.attach (settings.ownOf r) r.1.id r.2 d) d

/-- The draft of a declared backend before anything is routed to it. -/
def DeclaredBackend.draft (settings : Settings) (b : DeclaredBackend) : Draft :=
  ⟨Backend.bare b.id b.tcp b.endpoints, Annotations.empty settings⟩

@[simp]
theorem DeclaredBackend.id_draft (settings : Settings) (b : DeclaredBackend) :
    (b.draft settings).backend.id = b.id := rfl

/-- The rules of a snapshot that route to a backend, in the order of the document. -/
def Snapshot.rulesFor (s : Snapshot) (id : BackendId) : List (Resource × Rule) :=
  s.routes.filter fun r => r.1.target r.2 = id

theorem mem_routes_iff {s : Snapshot} {r : Resource × Rule} :
    r ∈ s.routes ↔ r.1 ∈ s.resources ∧ r.2 ∈ r.1.rules := by
  unfold Snapshot.routes
  simp only [List.mem_flatMap, List.mem_map]
  constructor
  · rintro ⟨resource, hresource, rule, hrule, rfl⟩
    exact ⟨hresource, hrule⟩
  · rintro ⟨hresource, hrule⟩
    exact ⟨r.1, hresource, r.2, hrule, rfl⟩

/-! ## Attached rules -/

/-- A rule changes nothing of a backend but its paths. -/
theorem backend_attach (own : Table String) (resource : ResourceId) (rule : Rule) (d : Draft) :
    (Layout.attach own resource rule d).backend =
      { d.backend with paths := (Layout.attach own resource rule d).backend.paths } := by
  unfold Layout.attach Backend.route
  dsimp only
  split <;> rfl

theorem id_attach (own : Table String) (resource : ResourceId) (rule : Rule) (d : Draft) :
    (Layout.attach own resource rule d).backend.id = d.backend.id := by
  rw [backend_attach]

theorem backend_attachAll (settings : Settings) (rules : List (Resource × Rule)) (d : Draft) :
    (d.attachAll settings rules).backend =
      { d.backend with paths := (d.attachAll settings rules).backend.paths } := by
  unfold Draft.attachAll
  induction rules generalizing d with
  | nil => rfl
  | cons r rules ih =>
    rw [List.foldl_cons]
    conv_lhs => rw [ih, backend_attach]

theorem id_attachAll (settings : Settings) (rules : List (Resource × Rule)) (d : Draft) :
    (d.attachAll settings rules).backend.id = d.backend.id := by
  rw [backend_attachAll]

theorem settings_attachAll (settings : Settings) (rules : List (Resource × Rule)) (d : Draft) :
    (d.attachAll settings rules).annotations.settings = d.annotations.settings := by
  unfold Draft.attachAll
  induction rules generalizing d with
  | nil => rfl
  | cons r rules ih => exact ih _

theorem declared_attachAll (settings : Settings) (rules : List (Resource × Rule)) (d : Draft) :
    (d.attachAll settings rules).annotations.declared =
      (rules.flatMap settings.declarations).foldl Declarations.add d.annotations.declared := by
  unfold Draft.attachAll
  induction rules generalizing d with
  | nil => rfl
  | cons r rules ih =>
    rw [List.foldl_cons, ih, List.flatMap_cons, List.foldl_append]
    congr 1
    exact Declarations.addEach_eq_foldl_add ..

/-- What a rule routes to its backend. -/
def Rule.route (r : Rule) : Route := ⟨r.host, r.path⟩

theorem backend_attachAll_eq_routeAll (settings : Settings) (rules : List (Resource × Rule))
    (d : Draft) :
    (d.attachAll settings rules).backend = d.backend.routeAll (rules.map (·.2.route)) := by
  unfold Draft.attachAll Backend.routeAll
  induction rules generalizing d with
  | nil => rfl
  | cons r rules ih => exact ih _

theorem mem_hostpaths_attachAll {settings : Settings} {rules : List (Resource × Rule)} {d : Draft}
    {hostpath : String} :
    hostpath ∈ (d.attachAll settings rules).backend.paths.hostpaths ↔
      hostpath ∈ d.backend.paths.hostpaths ∨ ∃ r ∈ rules, r.2.hostpath = hostpath := by
  rw [backend_attachAll_eq_routeAll, Backend.mem_hostpaths_routeAll, List.map_map, List.mem_map]
  rfl

/-! ## Declared backends and routed rules -/

theorem declare_eq_ok {settings : Settings} {l l' : Layout} {b : DeclaredBackend}
    (h : l.declare settings b = .ok l') :
    l.declares b.id = false ∧ l' = { l with drafts := l.drafts ++ [b.draft settings] } := by
  unfold Layout.declare at h
  split at h
  · cases h
  · next hnew => exact ⟨by simpa using hnew, (Except.ok.inj h).symm⟩

theorem foldlM_declare_eq_ok {settings : Settings} {l l' : Layout} {bs : List DeclaredBackend}
    (h : bs.foldlM (Layout.declare settings) l = .ok l') :
    l' = { l with drafts := l.drafts ++ bs.map (·.draft settings) } := by
  induction bs generalizing l with
  | nil => simpa using (Except.ok.inj h).symm
  | cons b bs ih =>
    obtain ⟨mid, hb, hbs⟩ := ok_of_bind h
    rw [ih hbs, (declare_eq_ok hb).2]
    simp

/-- No backend is declared twice. -/
theorem nodup_of_foldlM_declare {settings : Settings} {l l' : Layout} {bs : List DeclaredBackend}
    (h : bs.foldlM (Layout.declare settings) l = .ok l')
    (hl : (l.drafts.map (·.backend.id)).Nodup) : (l'.drafts.map (·.backend.id)).Nodup := by
  induction bs generalizing l with
  | nil => rwa [← Except.ok.inj h]
  | cons b bs ih =>
    obtain ⟨mid, hb, hbs⟩ := ok_of_bind h
    obtain ⟨hnew, rfl⟩ := declare_eq_ok hb
    apply ih hbs
    apply nodup_keys_append hl
    rw [mem_keys_iff_any]
    intro hany
    exact Bool.false_ne_true (hnew.symm.trans hany)

theorem route_eq_ok {settings : Settings} {l l' : Layout} {r : Resource × Rule}
    (h : l.route settings r = .ok l') :
    l' = ⟨l.drafts.map fun d =>
        if d.backend.id = r.1.target r.2 then Layout.attach (settings.ownOf r) r.1.id r.2 d else d,
      l.routes.link r.2.host r.2.path (r.1.target r.2)⟩ := by
  unfold Layout.route at h
  dsimp only at h
  split at h
  · exact (Except.ok.inj h).symm
  · cases h

/-- Every draft gets the rules that route to it, and no others. -/
theorem foldlM_route_eq_ok {settings : Settings} {l l' : Layout} {rules : List (Resource × Rule)}
    (h : rules.foldlM (Layout.route settings) l = .ok l') :
    l'.drafts = l.drafts.map fun d =>
      d.attachAll settings (rules.filter fun r => r.1.target r.2 = d.backend.id) := by
  induction rules generalizing l with
  | nil =>
    rw [← Except.ok.inj h]
    exact (List.map_id _).symm
  | cons r rules ih =>
    obtain ⟨mid, hr, hrules⟩ := ok_of_bind h
    rw [ih hrules, route_eq_ok hr, List.map_map]
    refine List.map_congr_left fun d _ => ?_
    by_cases htarget : d.backend.id = r.1.target r.2
    · simp [htarget, id_attach, Draft.attachAll]
    · simp [htarget, Ne.symm htarget]

/-- The drafts of a snapshot: every declared backend once, with its own rules attached. -/
theorem drafts_of_layout {s : Snapshot} {settings : Settings} {layout : Layout}
    (h : s.layout settings = .ok layout) :
    layout.drafts = s.backends.map fun b =>
      (b.draft settings).attachAll settings (s.rulesFor b.id) := by
  obtain ⟨declared, hdeclared, hroutes⟩ := ok_of_bind h
  rw [foldlM_route_eq_ok hroutes, foldlM_declare_eq_ok hdeclared, Layout.empty, List.nil_append,
    List.map_map]
  rfl

theorem ids_of_layout {s : Snapshot} {settings : Settings} {layout : Layout}
    (h : s.layout settings = .ok layout) :
    layout.drafts.map (·.backend.id) = s.backends.map (·.id) := by
  rw [drafts_of_layout h, List.map_map]
  exact List.map_congr_left fun b _ => id_attachAll _ _ _

theorem nodup_ids_of_layout {s : Snapshot} {settings : Settings} {layout : Layout}
    (h : s.layout settings = .ok layout) : (s.backends.map (·.id)).Nodup := by
  obtain ⟨declared, hdeclared, -⟩ := ok_of_bind h
  have hnodup := nodup_of_foldlM_declare hdeclared (by simp [Layout.empty])
  rw [foldlM_declare_eq_ok hdeclared] at hnodup
  simpa [Layout.empty, Function.comp_def] using hnodup

end Ingress
