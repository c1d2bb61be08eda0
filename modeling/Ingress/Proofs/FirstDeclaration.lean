-- Where the declarations of a backend come from. A key is declared at a scope by the first rule in
-- the document that routes the scope to the backend and carries the key. Main statement: this holds
-- of every backend of every snapshot that can be rendered.
import Ingress.Proofs.Rendering

namespace Ingress

/-! ## The declarations of a rule -/

variable (settings : Settings) (key : String)

theorem filter_declarations (r : Resource × Rule) :
    (settings.declarations r).filter (·.key = key) = (settings.declaration? key r).toList := by
  unfold Settings.declarations Settings.declaration?
  rw [List.filter_map]
  have hentries := (settings.ownOf r).filter_entries key
  simp only [Function.comp_def] at hentries ⊢
  rw [hentries]
  cases (settings.ownOf r).find? key <;> rfl

theorem filter_flatMap_declarations (rules : List (Resource × Rule)) :
    (rules.flatMap settings.declarations).filter (·.key = key) =
      rules.filterMap (settings.declaration? key) := by
  rw [List.filter_flatMap]
  induction rules with
  | nil => rfl
  | cons r rules ih =>
    rw [List.flatMap_cons, ih, filter_declarations, List.filterMap_cons]
    cases settings.declaration? key r <;> rfl

theorem scope_of_declaration? {settings : Settings} {key : String} {r : Resource × Rule}
    {e : Declaration} (h : settings.declaration? key r = some e) : e.scope = r.2.hostpath := by
  obtain ⟨value, -, rfl⟩ := Option.map_eq_some_iff.mp h
  rfl

theorem isSome_declaration? (r : Resource × Rule) :
    (settings.declaration? key r).isSome = ((settings.ownOf r).find? key).isSome :=
  Option.isSome_map

/-- The first declaration at a scope is that of the first rule of the scope that makes one. -/
theorem find?_filterMap_declaration? (rules : List (Resource × Rule)) (scope : String) :
    (rules.filterMap (settings.declaration? key)).find? (·.scope = scope) =
      (rules.filter (·.2.hostpath = scope)).findSome? (settings.declaration? key) := by
  induction rules with
  | nil => rfl
  | cons r rules ih =>
    cases he : settings.declaration? key r with
    | none => by_cases hs : r.2.hostpath = scope <;> simp [he, hs, ih]
    | some e =>
      have hscope := scope_of_declaration? he
      by_cases hs : r.2.hostpath = scope
      · simp [he, hs, hscope]
      · simp [he, hs, hscope, ih]

/-! ## Drafts -/

/-- What the declarations of a draft are, when exactly the given rules are routed to it: a key is
declared at the scopes of the rules that carry it, by the first rule there, in the order of the
rules, and at hostpaths of the backend only. -/
structure Draft.DeclaredBy (settings : Settings) (rules : List (Resource × Rule)) (d : Draft) :
    Prop where
  reads : d.annotations.settings = settings
  declares : ∀ key scope, d.annotations.declared.declares key scope = true ↔
    ∃ r ∈ rules, r.2.hostpath = scope ∧ ((settings.ownOf r).find? key).isSome
  first : ∀ key scope, d.annotations.declared.at? key scope =
    (rules.filter (·.2.hostpath = scope)).findSome? (settings.declaration? key)
  listed : ∀ key, d.annotations.declared.ofKey key =
    firstAtScopes (rules.filterMap (settings.declaration? key))
  canonical : ∀ key, d.annotations.declared.canonical? key =
    rules.findSome? (settings.declaration? key)
  scopes : ∀ e ∈ d.annotations.declared.log, e.scope ∈ d.backend.paths.hostpaths

/-- Rules attached to a fresh draft declare what is declared, and nothing else does. -/
theorem declaredBy_attachAll (rules : List (Resource × Rule)) (b : DeclaredBackend) :
    ((b.draft settings).attachAll settings rules).DeclaredBy settings rules := by
  have hdeclared := declared_attachAll settings rules (b.draft settings)
  have hlisted : ∀ key,
      ((b.draft settings).attachAll settings rules).annotations.declared.ofKey key =
        firstAtScopes (rules.filterMap (settings.declaration? key)) := by
    intro key
    rw [hdeclared, ← filter_flatMap_declarations]
    exact Declarations.ofKey_foldl_add_empty _ key
  have hfirst : ∀ key scope,
      ((b.draft settings).attachAll settings rules).annotations.declared.at? key scope =
        (rules.filter (·.2.hostpath = scope)).findSome? (settings.declaration? key) := by
    intro key scope
    rw [Declarations.at?, hlisted, find?_firstAtScopes, find?_filterMap_declaration?]
  refine ⟨settings_attachAll settings rules _, ?_, hfirst, hlisted, ?_, ?_⟩
  · intro key scope
    rw [Declarations.declares_eq_isSome_at?, hfirst, List.findSome?_isSome_iff]
    simp only [List.mem_filter, decide_eq_true_eq, isSome_declaration?, and_assoc]
  · intro key
    rw [Declarations.canonical?, hlisted, head?_firstAtScopes, List.head?_filterMap]
  · -- A declaration comes from a rule, and the same rule routed its hostpath to the backend.
    intro e he
    rw [hdeclared] at he
    rcases Declarations.mem_log_foldl_add he with hold | hnew
    · cases hold
    · obtain ⟨r, hr, hdecl⟩ := List.mem_flatMap.mp hnew
      obtain ⟨entry, -, rfl⟩ := List.mem_map.mp hdecl
      exact mem_hostpaths_attachAll.mpr (.inr ⟨r, hr, rfl⟩)

theorem declaredBy_draft (s : Snapshot) (b : DeclaredBackend) :
    (s.draft settings b).DeclaredBy settings (s.rulesFor b.id) :=
  declaredBy_attachAll settings (s.rulesFor b.id) b

/-! ## Rendering -/

/-- A snapshot that is rendered has one draft for each of its backends, and the first rule in the
document that routes a scope to a backend and carries a key declares the key there. -/
theorem first_declaration_wins {s : Snapshot} {settings : Settings} {rendered : Rendered}
    (h : (s.render settings).value = .ok rendered) :
    ∃ layout, s.layout settings = .ok layout ∧
      rendered = (updateAll s.cluster layout.routes layout.drafts []).value ∧
      List.Forall₂ (fun d b => d.backend.Keeps b) layout.drafts rendered.backends ∧
      layout.drafts.map (·.backend.id) = s.backends.map (·.id) ∧
      (s.backends.map (·.id)).Nodup ∧
      ∀ d ∈ layout.drafts, d.DeclaredBy settings (s.rulesFor d.backend.id) := by
  obtain ⟨layout, hlayout, rfl⟩ := render_eq_ok h
  refine ⟨layout, hlayout, rfl, keeps_updateAll _ _ _ _, ids_of_layout hlayout,
    nodup_ids_of_layout hlayout, ?_⟩
  intro d hd
  rw [drafts_of_layout hlayout] at hd
  obtain ⟨b, -, rfl⟩ := List.mem_map.mp hd
  have hid : ((b.draft settings).attachAll settings (s.rulesFor b.id)).backend.id = b.id :=
    id_attachAll _ _ _
  rw [hid]
  exact declaredBy_attachAll settings (s.rulesFor b.id) b

/-- Two resources that route the same hostpath to one backend. Both declare its firewall, and only
the second one declares strict transport. -/
def sharedHostpath : Snapshot where
  resources := [
    ⟨⟨"ingress", "shop", "first"⟩, .ofList [(Key.waf, "modsecurity")],
      [⟨"a.test", "/", "web", "80"⟩]⟩,
    ⟨⟨"ingress", "shop", "second"⟩, .ofList [(Key.waf, "off"), (Key.hsts, "true")],
      [⟨"a.test", "/", "web", "80"⟩]⟩]
  backends := [⟨⟨"shop", "web", "80"⟩, false, []⟩]
  pods := .empty
  secrets := .empty

theorem second_resource_adds_a_key :
    ∃ layout, sharedHostpath.layout .plain = .ok layout ∧
      layout.drafts.map (·.backend.id) = [⟨"shop", "web", "80"⟩] ∧ ∀ d ∈ layout.drafts,
      (d.annotations.declared.at? Key.waf "a.test/").map (·.value) = some "modsecurity" ∧
      (d.annotations.declared.at? Key.hsts "a.test/").map (·.source.name) = some "second" := by
  have hok : (sharedHostpath.render .plain).value.isOk = true := by decide
  cases hrender : (sharedHostpath.render .plain).value with
  | error e => rw [hrender] at hok; cases hok
  | ok rendered =>
    obtain ⟨layout, hlayout, -, -, hids, -, hdeclared⟩ := first_declaration_wins hrender
    refine ⟨layout, hlayout, hids, fun d hd => ?_⟩
    have hid : d.backend.id ∈ sharedHostpath.backends.map (·.id) :=
      hids ▸ List.mem_map_of_mem hd
    have hfirst := (hdeclared d hd).first
    rw [List.mem_singleton.mp hid] at hfirst
    rw [hfirst, hfirst]
    decide

end Ingress
