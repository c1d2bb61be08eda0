-- When a snapshot is refused. Backends are declared before rules are routed, each in the order of
-- the document, and the first bad reference ends the run. Main statement: a snapshot is refused
-- exactly for a backend that is declared twice, or else for a rule to a backend that is not
-- declared, and nothing is told of it.
import Ingress.Proofs.Rendering

namespace Ingress

/-! ## Declared backends -/

variable {settings : Settings} {l l' : Layout} {bs : List DeclaredBackend}
  {rules : List (Resource × Rule)} {e : RenderError}

/-- The backends that a layout has drafts of. -/
def Layout.ids (l : Layout) : List BackendId := l.drafts.map (·.backend.id)

theorem declares_iff {id : BackendId} : l.declares id = true ↔ id ∈ l.ids := mem_keys_iff_any.symm

theorem declare_eq_error_iff {b : DeclaredBackend} :
    l.declare settings b = .error e ↔ b.id ∈ l.ids ∧ e = .duplicateBackend b.id := by
  unfold Layout.declare
  rw [← declares_iff]
  split
  · next h => simp [h, eq_comm]
  · next h => simp [h]

theorem ids_of_foldlM_declare (h : bs.foldlM (Layout.declare settings) .empty = .ok l) :
    l.ids = bs.map (·.id) := by
  rw [foldlM_declare_eq_ok h]
  simp [Layout.ids, Layout.empty, Function.comp_def]

theorem exists_foldlM_declare_iff (settings : Settings) :
    (∃ l, bs.foldlM (Layout.declare settings) .empty = .ok l) ↔ (bs.map (·.id)).Nodup := by
  constructor
  · rintro ⟨l, h⟩
    rw [← ids_of_foldlM_declare h]
    exact nodup_of_foldlM_declare h (by simp [Layout.empty])
  · intro hnodup
    cases h : bs.foldlM (Layout.declare settings) .empty with
    | ok l => exact ⟨l, rfl⟩
    | error e =>
      -- The step that fails repeats a backend that the steps before it declared.
      obtain ⟨before, b, after, rfl, mid, hbefore, hb⟩ := foldlM_eq_error_iff.mp h
      have hagain := (declare_eq_error_iff.mp hb).1
      rw [ids_of_foldlM_declare hbefore] at hagain
      rw [List.map_append, List.nodup_append] at hnodup
      exact absurd rfl (hnodup.2.2 b.id hagain b.id (by simp))

theorem foldlM_declare_eq_error_iff : bs.foldlM (Layout.declare settings) .empty = .error e ↔
    ∃ before b after, bs = before ++ b :: after ∧ (before.map (·.id)).Nodup ∧
      b.id ∈ before.map (·.id) ∧ e = .duplicateBackend b.id := by
  rw [foldlM_eq_error_iff]
  constructor
  · rintro ⟨before, b, after, hsplit, mid, hbefore, hb⟩
    obtain ⟨hagain, he⟩ := declare_eq_error_iff.mp hb
    rw [ids_of_foldlM_declare hbefore] at hagain
    have hnodup := (exists_foldlM_declare_iff settings).mp ⟨mid, hbefore⟩
    exact ⟨before, b, after, hsplit, hnodup, hagain, he⟩
  · rintro ⟨before, b, after, hsplit, hnodup, hagain, he⟩
    obtain ⟨mid, hbefore⟩ := (exists_foldlM_declare_iff settings).mpr hnodup
    refine ⟨before, b, after, hsplit, mid, hbefore, declare_eq_error_iff.mpr ⟨?_, he⟩⟩
    rw [ids_of_foldlM_declare hbefore]
    exact hagain

/-! ## Routed rules -/

theorem route_eq_error_iff {r : Resource × Rule} : l.route settings r = .error e ↔
    r.1.target r.2 ∉ l.ids ∧ e = .unknownBackend r.1.id (r.1.target r.2) := by
  unfold Layout.route
  rw [← declares_iff]
  dsimp only
  split
  · next h => simp [h]
  · next h => simp [h, eq_comm]

theorem exists_route_iff (settings : Settings) {r : Resource × Rule} :
    (∃ l', l.route settings r = .ok l') ↔ r.1.target r.2 ∈ l.ids := by
  unfold Layout.route
  rw [← declares_iff]
  dsimp only
  split
  · next h => simp [h]
  · next h => simp [h]

theorem ids_of_route {r : Resource × Rule} (h : l.route settings r = .ok l') : l'.ids = l.ids := by
  unfold Layout.ids
  rw [route_eq_ok h, List.map_map]
  apply List.map_congr_left
  intro d _
  dsimp only [Function.comp_apply]
  split
  · exact id_attach _ _ _ d
  · rfl

theorem ids_of_foldlM_route (h : rules.foldlM (Layout.route settings) l = .ok l') :
    l'.ids = l.ids := by
  induction rules generalizing l with
  | nil => rw [← Except.ok.inj h]
  | cons r rules ih =>
    obtain ⟨mid, hr, hrules⟩ := ok_of_bind h
    rw [ih hrules, ids_of_route hr]

theorem exists_foldlM_route_iff (settings : Settings) :
    (∃ l', rules.foldlM (Layout.route settings) l = .ok l') ↔
      ∀ r ∈ rules, r.1.target r.2 ∈ l.ids := by
  induction rules generalizing l with
  | nil => exact ⟨fun _ r hr => absurd hr List.not_mem_nil, fun _ => ⟨l, rfl⟩⟩
  | cons r rules ih =>
    rw [List.forall_mem_cons]
    constructor
    · rintro ⟨l', h⟩
      obtain ⟨mid, hr, hrules⟩ := ok_of_bind h
      refine ⟨(exists_route_iff settings).mp ⟨mid, hr⟩, ?_⟩
      rw [← ids_of_route hr]
      exact ih.mp ⟨l', hrules⟩
    · rintro ⟨hr, hrules⟩
      obtain ⟨mid, hr⟩ := (exists_route_iff settings).mpr hr
      rw [← ids_of_route hr] at hrules
      obtain ⟨l', hl'⟩ := ih.mpr hrules
      refine ⟨l', ?_⟩
      rw [List.foldlM_cons, hr]
      exact hl'

theorem foldlM_route_eq_error_iff : rules.foldlM (Layout.route settings) l = .error e ↔
    ∃ before r after, rules = before ++ r :: after ∧ (∀ q ∈ before, q.1.target q.2 ∈ l.ids) ∧
      r.1.target r.2 ∉ l.ids ∧ e = .unknownBackend r.1.id (r.1.target r.2) := by
  rw [foldlM_eq_error_iff]
  constructor
  · rintro ⟨before, r, after, hsplit, mid, hbefore, hr⟩
    rw [route_eq_error_iff, ids_of_foldlM_route hbefore] at hr
    exact ⟨before, r, after, hsplit, (exists_foldlM_route_iff settings).mp ⟨mid, hbefore⟩, hr⟩
  · rintro ⟨before, r, after, hsplit, hknown, hr⟩
    obtain ⟨mid, hbefore⟩ := (exists_foldlM_route_iff settings).mpr hknown
    refine ⟨before, r, after, hsplit, mid, hbefore, ?_⟩
    rw [route_eq_error_iff, ids_of_foldlM_route hbefore]
    exact hr

/-! ## Snapshots -/

/-- The bad reference that a snapshot is refused for: the first backend that repeats an earlier one,
or, if there is none, the first rule to a backend that is not declared. -/
inductive Snapshot.BadReference (s : Snapshot) : RenderError → Prop
  | repeated {before after : List DeclaredBackend} {b : DeclaredBackend} :
    s.backends = before ++ b :: after → (before.map (·.id)).Nodup → b.id ∈ before.map (·.id) →
      s.BadReference (.duplicateBackend b.id)
  | undeclared {before after : List (Resource × Rule)} {r : Resource × Rule} :
    (s.backends.map (·.id)).Nodup → s.routes = before ++ r :: after →
      (∀ q ∈ before, q.1.target q.2 ∈ s.backends.map (·.id)) →
      r.1.target r.2 ∉ s.backends.map (·.id) →
      s.BadReference (.unknownBackend r.1.id (r.1.target r.2))

variable {s : Snapshot}

theorem layout_eq_error_iff : s.layout settings = .error e ↔ s.BadReference e := by
  unfold Snapshot.layout
  rw [bind_eq_error_iff, foldlM_declare_eq_error_iff]
  constructor
  · rintro (⟨before, b, after, hsplit, hnodup, hagain, rfl⟩ | ⟨l, hdeclared, hroutes⟩)
    · exact .repeated hsplit hnodup hagain
    · have hids := ids_of_foldlM_declare hdeclared
      obtain ⟨before, r, after, hsplit, hknown, hunknown, rfl⟩ :=
        foldlM_route_eq_error_iff.mp hroutes
      rw [hids] at hknown hunknown
      exact .undeclared ((exists_foldlM_declare_iff settings).mp ⟨l, hdeclared⟩) hsplit hknown
        hunknown
  · rintro (⟨hsplit, hnodup, hagain⟩ | ⟨hnodup, hsplit, hknown, hunknown⟩)
    · exact .inl ⟨_, _, _, hsplit, hnodup, hagain, rfl⟩
    · obtain ⟨l, hdeclared⟩ := (exists_foldlM_declare_iff settings).mpr hnodup
      rw [← ids_of_foldlM_declare hdeclared] at hknown hunknown
      exact .inr ⟨l, hdeclared,
        foldlM_route_eq_error_iff.mpr ⟨_, _, _, hsplit, hknown, hunknown, rfl⟩⟩

/-- Whether every reference of a snapshot is good. -/
structure Snapshot.GoodReferences (s : Snapshot) : Prop where
  distinct : (s.backends.map (·.id)).Nodup
  known : ∀ r ∈ s.routes, r.1.target r.2 ∈ s.backends.map (·.id)

theorem exists_layout_iff (settings : Settings) :
    (∃ l, s.layout settings = .ok l) ↔ s.GoodReferences := by
  unfold Snapshot.layout
  constructor
  · rintro ⟨l, h⟩
    obtain ⟨declared, hdeclared, hroutes⟩ := ok_of_bind h
    refine ⟨(exists_foldlM_declare_iff settings).mp ⟨declared, hdeclared⟩, ?_⟩
    rw [← ids_of_foldlM_declare hdeclared]
    exact (exists_foldlM_route_iff settings).mp ⟨l, hroutes⟩
  · rintro ⟨hnodup, hknown⟩
    obtain ⟨declared, hdeclared⟩ := (exists_foldlM_declare_iff settings).mpr hnodup
    rw [← ids_of_foldlM_declare hdeclared] at hknown
    obtain ⟨l, hl⟩ := (exists_foldlM_route_iff settings).mpr hknown
    refine ⟨l, ?_⟩
    rw [hdeclared]
    exact hl

theorem goodReferences_or_badReference (s : Snapshot) :
    s.GoodReferences ∨ ∃ e, s.BadReference e := by
  cases h : s.layout .plain with
  | ok l => exact .inl ((exists_layout_iff .plain).mp ⟨l, h⟩)
  | error e => exact .inr ⟨e, layout_eq_error_iff.mp h⟩

theorem exists_repeated_iff :
    (∃ id, s.BadReference (.duplicateBackend id)) ↔ ¬(s.backends.map (·.id)).Nodup := by
  constructor
  · rintro ⟨id, hsplit, -, hagain⟩ hnodup
    rw [hsplit, List.map_append, List.nodup_append] at hnodup
    exact hnodup.2.2 _ hagain _ (by simp) rfl
  · intro hnodup
    rcases goodReferences_or_badReference s with hgood | ⟨e, hbad⟩
    · exact absurd hgood.distinct hnodup
    · cases hbad with
      | repeated hsplit hbefore hagain => exact ⟨_, .repeated hsplit hbefore hagain⟩
      | undeclared hdistinct => exact absurd hdistinct hnodup

theorem exists_undeclared_iff : (∃ resource id, s.BadReference (.unknownBackend resource id)) ↔
    (s.backends.map (·.id)).Nodup ∧ ∃ r ∈ s.routes, r.1.target r.2 ∉ s.backends.map (·.id) := by
  constructor
  · rintro ⟨resource, id, hbad⟩
    cases hbad with
    | undeclared hdistinct hsplit hknown hunknown =>
      refine ⟨hdistinct, _, ?_, hunknown⟩
      rw [hsplit]
      exact List.mem_append_right _ List.mem_cons_self
  · rintro ⟨hnodup, r, hr, hunknown⟩
    rcases goodReferences_or_badReference s with hgood | ⟨e, hbad⟩
    · exact absurd (hgood.known r hr) hunknown
    · cases hbad with
      | repeated hsplit hbefore hagain =>
        exact absurd hnodup (exists_repeated_iff.mp ⟨_, .repeated hsplit hbefore hagain⟩)
      | undeclared hdistinct hsplit hknown hunknown =>
        exact ⟨_, _, .undeclared hdistinct hsplit hknown hunknown⟩

/-! ## Rendering -/

theorem render_eq_error_iff :
    (s.render settings).value = .error e ↔ s.layout settings = .error e := by
  rw [value_render]
  cases s.layout settings <;> simp [Except.map]

theorem exists_render_iff (settings : Settings) :
    (∃ rendered, (s.render settings).value = .ok rendered) ↔ s.GoodReferences := by
  rw [value_render, ← exists_layout_iff settings]
  cases s.layout settings <;> simp [Except.map]

theorem events_of_render_eq_error (h : (s.render settings).value = .error e) :
    (s.render settings).events = [] := by
  unfold Snapshot.render
  rw [render_eq_error_iff.mp h]
  rfl

/-- A snapshot is refused exactly for its first bad reference, a repeated backend before a rule to
an unknown one, and then nothing is told or counted. -/
theorem refused_exactly_for_the_first_bad_reference (s : Snapshot) (settings : Settings) :
    (∀ e, (s.render settings).value = .error e ↔ s.BadReference e) ∧
      ((∃ id, (s.render settings).value = .error (.duplicateBackend id)) ↔
        ¬(s.backends.map (·.id)).Nodup) ∧
      ((∃ resource id, (s.render settings).value = .error (.unknownBackend resource id)) ↔
        (s.backends.map (·.id)).Nodup ∧ ∃ r ∈ s.routes, r.1.target r.2 ∉ s.backends.map (·.id)) ∧
      ((∃ rendered, (s.render settings).value = .ok rendered) ↔
        (s.backends.map (·.id)).Nodup ∧ ∀ r ∈ s.routes, r.1.target r.2 ∈ s.backends.map (·.id)) ∧
      ∀ e, (s.render settings).value = .error e →
        (s.render settings).events = [] ∧ counts (s.render settings).events = [] := by
  have hbad : ∀ e, (s.render settings).value = .error e ↔ s.BadReference e :=
    fun e => render_eq_error_iff.trans layout_eq_error_iff
  refine ⟨hbad, ?_, ?_, ?_, ?_⟩
  · simp only [hbad]
    exact exists_repeated_iff
  · simp only [hbad]
    exact exists_undeclared_iff
  · rw [exists_render_iff settings]
    exact ⟨fun h => ⟨h.distinct, h.known⟩, fun h => ⟨h.1, h.2⟩⟩
  · intro e he
    rw [events_of_render_eq_error he]
    exact ⟨rfl, rfl⟩

end Ingress
