-- What a render makes of a layout: every draft is updated once, in order, and only the userlists go
-- from one update to the next.
import Ingress.Proofs.Layout
import Ingress.Proofs.Update
import Mathlib.Data.List.Forall2

namespace Ingress

theorem value_render (s : Snapshot) (settings : Settings) : (s.render settings).value =
    (s.layout settings).map fun l => (updateAll s.cluster l.routes l.drafts []).value := by
  unfold Snapshot.render
  cases s.layout settings <;> rfl

theorem render_eq_ok {s : Snapshot} {settings : Settings} {rendered : Rendered}
    (h : (s.render settings).value = .ok rendered) :
    ∃ layout, s.layout settings = .ok layout ∧
      rendered = (updateAll s.cluster layout.routes layout.drafts []).value := by
  rw [value_render] at h
  cases hlayout : s.layout settings with
  | error e =>
    rw [hlayout] at h
    cases h
  | ok layout =>
    rw [hlayout] at h
    exact ⟨layout, rfl, (Except.ok.inj h).symm⟩

theorem events_render {s : Snapshot} {settings : Settings} {layout : Layout}
    (h : s.layout settings = .ok layout) : (s.render settings).events =
      (updateAll s.cluster layout.routes layout.drafts []).events := by
  unfold Snapshot.render
  rw [h]
  exact List.append_nil _

variable (cluster : ClusterView) (routes : RouteTable)

/-- A render updates every draft once, in order, each behind some userlists. -/
theorem updated_updateAll (drafts : List Draft) (lists : List Userlist) :
    List.Forall₂ (fun d b => ∃ lists', b = (d.update cluster routes lists').value.1) drafts
      (updateAll cluster routes drafts lists).value.backends := by
  induction drafts generalizing lists with
  | nil => exact .nil
  | cons d drafts ih => exact .cons ⟨lists, rfl⟩ (ih _)

theorem keeps_updateAll (drafts : List Draft) (lists : List Userlist) :
    List.Forall₂ (fun d b => d.backend.Keeps b) drafts
      (updateAll cluster routes drafts lists).value.backends := by
  apply (updated_updateAll cluster routes drafts lists).imp
  rintro d b ⟨lists', rfl⟩
  exact d.keeps_update cluster routes lists'

theorem ids_updateAll (drafts : List Draft) (lists : List Userlist) :
    (updateAll cluster routes drafts lists).value.backends.map (·.id) =
      drafts.map (·.backend.id) := by
  induction drafts generalizing lists with
  | nil => rfl
  | cons d drafts ih => exact congrArg (d.backend.id :: ·) (ih _)

/-- A rendered backend is a draft updated behind some userlists. -/
theorem mem_updateAll {drafts : List Draft} {lists : List Userlist} {b : Backend}
    (h : b ∈ (updateAll cluster routes drafts lists).value.backends) :
    ∃ d ∈ drafts, ∃ lists', b = (d.update cluster routes lists').value.1 := by
  induction drafts generalizing lists with
  | nil => cases h
  | cons d drafts ih =>
    rcases List.mem_cons.mp h with rfl | hrest
    · exact ⟨d, List.mem_cons_self, lists, rfl⟩
    · obtain ⟨d', hd', hb⟩ := ih hrest
      exact ⟨d', List.mem_cons_of_mem _ hd', hb⟩

/-! ## Snapshots -/

/-- The links of rules, one after the other. -/
def RouteTable.ofRules (rules : List (Resource × Rule)) : RouteTable :=
  rules.foldl (fun t r => t.link r.2.host r.2.path (r.1.target r.2)) .empty

/-- The draft of a declared backend, with the rules of the snapshot that route to it. -/
def Snapshot.draft (s : Snapshot) (settings : Settings) (b : DeclaredBackend) : Draft :=
  (b.draft settings).attachAll settings (s.rulesFor b.id)

variable {s : Snapshot} {settings : Settings} {rendered : Rendered}

theorem backend_draft (s : Snapshot) (settings : Settings) (b : DeclaredBackend) :
    (s.draft settings b).backend =
      { Backend.bare b.id b.tcp b.endpoints with paths := (s.draft settings b).backend.paths } :=
  backend_attachAll settings (s.rulesFor b.id) (b.draft settings)

theorem id_draft (s : Snapshot) (settings : Settings) (b : DeclaredBackend) :
    (s.draft settings b).backend.id = b.id := by
  rw [backend_draft]
  rfl

theorem routes_of_foldlM_route {l l' : Layout} {rules : List (Resource × Rule)}
    (h : rules.foldlM (Layout.route settings) l = .ok l') :
    l'.routes = rules.foldl (fun t r => t.link r.2.host r.2.path (r.1.target r.2)) l.routes := by
  induction rules generalizing l with
  | nil => rw [← Except.ok.inj h]; rfl
  | cons r rules ih =>
    obtain ⟨mid, hr, hrules⟩ := ok_of_bind h
    rw [ih hrules, route_eq_ok hr, List.foldl_cons]

theorem routes_of_layout {layout : Layout} (h : s.layout settings = .ok layout) :
    layout.routes = .ofRules s.routes := by
  obtain ⟨declared, hdeclared, hroutes⟩ := ok_of_bind h
  rw [routes_of_foldlM_route hroutes, foldlM_declare_eq_ok hdeclared]
  rfl

/-- The rendered backends of a snapshot are its declared ones. -/
theorem ids_of_render (h : (s.render settings).value = .ok rendered) :
    rendered.backends.map (·.id) = s.backends.map (·.id) := by
  obtain ⟨layout, hlayout, rfl⟩ := render_eq_ok h
  rw [ids_updateAll, ids_of_layout hlayout]

/-- The rendered backends are the drafts of the declared ones, each updated behind some
userlists. -/
theorem updated_render (h : (s.render settings).value = .ok rendered) :
    List.Forall₂ (fun declared b => ∃ lists,
        b = ((s.draft settings declared).update s.cluster (.ofRules s.routes) lists).value.1)
      s.backends rendered.backends := by
  obtain ⟨layout, hlayout, rfl⟩ := render_eq_ok h
  have hall := updated_updateAll s.cluster layout.routes layout.drafts []
  rw [routes_of_layout hlayout, drafts_of_layout hlayout] at hall ⊢
  exact List.forall₂_map_left_iff.mp hall

/-- A rendered backend is the draft of a declared one, updated behind some userlists. -/
theorem mem_render {b : Backend} (h : (s.render settings).value = .ok rendered)
    (hb : b ∈ rendered.backends) : ∃ declared ∈ s.backends, ∃ lists,
      b = ((s.draft settings declared).update s.cluster (.ofRules s.routes) lists).value.1 := by
  obtain ⟨layout, hlayout, rfl⟩ := render_eq_ok h
  obtain ⟨d, hd, lists, hupdate⟩ := mem_updateAll _ _ hb
  rw [drafts_of_layout hlayout] at hd
  obtain ⟨declared, hdeclared, rfl⟩ := List.mem_map.mp hd
  rw [routes_of_layout hlayout] at hupdate
  exact ⟨declared, hdeclared, lists, hupdate⟩

end Ingress
