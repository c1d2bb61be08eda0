-- The annotations that conflicts name. A conflict is about a key behind the prefix of the
-- controller, and its message puts the prefix back as the settings write it. Main statement: under
-- every snapshot the name is that of an annotation of the declaring resource, exactly if the prefix
-- is empty or ends in one slash.
import Ingress.Proofs.FirstDeclaration
import Ingress.Proofs.KeyPrefix
import Ingress.Proofs.ReadKeys
import Ingress.Proofs.References

namespace Ingress

/-! ## Names -/

/-- The annotation that a conflict names, and the resource that it says declares it. -/
def Event.named? : Event → Option (String × ResourceId)
  | .conflict keyPrefix key source _ _ => some (keyPrefix ++ key, source)
  | _ => none

theorem message_of_named? {e : Event} {name : String} {source : ResourceId}
    (h : e.named? = some (name, source)) : e.level = .warn ∧
      ∃ rest, e.message = "annotation '" ++ name ++ "' from " ++ source.text ++ rest := by
  cases e with
  | conflict keyPrefix key source scope others =>
    cases h
    refine ⟨rfl, " (path '" ++ scope ++
      "') overrides the same annotation with distinct value from [" ++
      ", ".intercalate (others.map (·.text)) ++ "]", ?_⟩
    unfold Event.message
    dsimp only
    simp only [String.append_assoc]
  | _ => cases h

/-- Whether a resource of the given identity carries an annotation, by its whole key. -/
def Snapshot.Carries (s : Snapshot) (source : ResourceId) (name : String) : Prop :=
  ∃ r ∈ s.resources, r.id = source ∧ name ∈ r.annotations.keys

/-- Whether every conflict of a snapshot names an annotation that its resource carries. -/
def Snapshot.NamesAnnotations (s : Snapshot) (settings : Settings) : Prop :=
  ∀ e ∈ (s.render settings).events, ∀ name source, e.named? = some (name, source) →
    s.Carries source name

/-! ## Conflicts of a render -/

variable {cluster : ClusterView} {routes : RouteTable} {e : Event}

theorem mem_conflicts_update {d : Draft} {lists : List Userlist}
    (he : e ∈ (d.update cluster routes lists).conflicts) :
    ∃ key, d.annotations.conflict? key = some e := by
  obtain ⟨read, -, hconflicts⟩ := d.reads_update cluster routes lists
  rw [hconflicts] at he
  obtain ⟨key, -, hkey⟩ := List.mem_filterMap.mp he
  exact ⟨key, hkey⟩

theorem mem_conflicts_updateAll {drafts : List Draft} {lists : List Userlist}
    (he : e ∈ (updateAll cluster routes drafts lists).conflicts) :
    ∃ d ∈ drafts, ∃ key, d.annotations.conflict? key = some e := by
  induction drafts generalizing lists with
  | nil => cases he
  | cons d drafts ih =>
    unfold updateAll at he
    simp only [Logged.conflicts_bind, Logged.conflicts_pure, List.append_nil, List.mem_append] at he
    rcases he with htold | hupdate | hrest
    · cases htold
    · exact ⟨d, List.mem_cons_self, mem_conflicts_update hupdate⟩
    · obtain ⟨d', hd', hkey⟩ := ih hrest
      exact ⟨d', List.mem_cons_of_mem _ hd', hkey⟩

theorem carries_of_mem_conflicts {s : Snapshot} {settings : Settings}
    (he : e ∈ (s.render settings).conflicts) : ∃ key source scope others,
      e = .conflict settings.keyPrefix key source scope others ∧
        s.Carries source (fullKey settings.keyPrefix key) := by
  cases hlayout : s.layout settings with
  | error error =>
    have hsilent := events_of_render_eq_error (render_eq_error_iff.mpr hlayout)
    rw [Logged.conflicts, hsilent] at he
    cases he
  | ok layout =>
    rw [Logged.conflicts, events_render hlayout] at he
    obtain ⟨d, hd, key, hkey⟩ := mem_conflicts_updateAll he
    rw [drafts_of_layout hlayout] at hd
    obtain ⟨b, -, rfl⟩ := List.mem_map.mp hd
    have hdeclared := declaredBy_attachAll settings (s.rulesFor b.id) b
    obtain ⟨first, hfirst, -, rfl⟩ := conflict?_eq_some_iff.mp hkey
    rw [hdeclared.canonical] at hfirst
    obtain ⟨r, hr, hdeclares⟩ := List.exists_of_findSome?_eq_some hfirst
    obtain ⟨value, hvalue, rfl⟩ := Option.map_eq_some_iff.mp hdeclares
    refine ⟨key, r.1.id, r.2.hostpath, _, by rw [hdeclared.reads], ?_⟩
    rw [Settings.ownOf, find?_ownAnnotations] at hvalue
    split at hvalue
    · cases hvalue
    · have hentry := Table.find?_eq_some_iff.mp hvalue
      have hroute := mem_routes_iff.mp (List.mem_of_mem_filter hr)
      exact ⟨r.1, hroute.1, rfl, List.mem_map_of_mem hentry⟩

/-! ## Prefixes that are put back as they were cut off -/

/-- A resource of a shop that wants a firewall, under a prefix. -/
def rival (keyPrefix name host firewall : String) : Resource where
  id := ⟨"ingress", "shop", name⟩
  annotations := .ofList [(fullKey keyPrefix Key.waf, firewall)]
  rules := [⟨host, "/", "web", "80"⟩]

/-- Two resources that want different firewalls before one backend. -/
def rivals (keyPrefix : String) : Snapshot where
  resources := [rival keyPrefix "first" "a.test" "modsecurity",
    rival keyPrefix "second" "b.test" "off"]
  backends := [⟨⟨"shop", "web", "80"⟩, false, []⟩]
  pods := .empty
  secrets := .empty

/-- Settings with nothing but a prefix. -/
def Settings.withPrefix (keyPrefix : String) : Settings := { Settings.plain with keyPrefix }

/-- The conflict of the rivals. -/
def rivalry (keyPrefix : String) : Event :=
  .conflict keyPrefix Key.waf ⟨"ingress", "shop", "first"⟩ "a.test/" [⟨"ingress", "shop", "second"⟩]

section Rivals

variable (keyPrefix : String)

theorem routes_rivals : (rivals keyPrefix).routes =
    [(rival keyPrefix "first" "a.test" "modsecurity", ⟨"a.test", "/", "web", "80"⟩),
      (rival keyPrefix "second" "b.test" "off", ⟨"b.test", "/", "web", "80"⟩)] := rfl

theorem goodReferences_rivals : (rivals keyPrefix).GoodReferences where
  distinct := List.nodup_singleton _
  known := by
    rw [routes_rivals, List.forall_mem_cons, List.forall_mem_singleton]
    exact ⟨List.mem_singleton_self _, List.mem_singleton_self _⟩

theorem declaration?_rival (name host firewall : String) (rule : Rule) :
    (Settings.withPrefix keyPrefix).declaration? Key.waf
      (rival keyPrefix name host firewall, rule) =
        some ⟨Key.waf, ⟨"ingress", "shop", name⟩, rule.hostpath, firewall⟩ := by
  have hfound : ((Settings.withPrefix keyPrefix).ownOf
      (rival keyPrefix name host firewall, rule)).find? Key.waf = some firewall := by
    unfold Settings.ownOf
    rw [find?_ownAnnotations, if_neg (by decide)]
    exact Table.find?_eq_some_iff.mpr (List.mem_singleton_self _)
  unfold Settings.declaration?
  rw [hfound]
  rfl

theorem rulesFor_rivals :
    (rivals keyPrefix).rulesFor ⟨"shop", "web", "80"⟩ = (rivals keyPrefix).routes := by
  unfold Snapshot.rulesFor
  rw [List.filter_eq_self, routes_rivals, List.forall_mem_cons, List.forall_mem_singleton]
  exact ⟨rfl, rfl⟩

variable {keyPrefix} {d : Draft}
  (hd : d.DeclaredBy (.withPrefix keyPrefix) (rivals keyPrefix).routes)

include hd

/-- Both rivals declare the firewall of the backend, the first one before the second. -/
theorem ofKey_rivals : d.annotations.declared.ofKey Key.waf =
    [⟨Key.waf, ⟨"ingress", "shop", "first"⟩, "a.test/", "modsecurity"⟩,
      ⟨Key.waf, ⟨"ingress", "shop", "second"⟩, "b.test/", "off"⟩] := by
  rw [hd.listed, routes_rivals]
  simp only [List.filterMap_cons, List.filterMap_nil, declaration?_rival]
  decide

theorem conflict?_rivals : d.annotations.conflict? Key.waf = some (rivalry keyPrefix) := by
  have hfirst : d.annotations.declared.canonical? Key.waf =
      some ⟨Key.waf, ⟨"ingress", "shop", "first"⟩, "a.test/", "modsecurity"⟩ := by
    unfold Declarations.canonical?
    rw [ofKey_rivals hd]
    rfl
  have hothers : d.annotations.declared.overridden Key.waf = [⟨"ingress", "shop", "second"⟩] := by
    unfold Declarations.overridden
    rw [ofKey_rivals hd]
    decide
  refine conflict?_eq_some_iff.mpr ⟨_, hfirst, ?_, ?_⟩
  · rw [hothers]
    exact List.cons_ne_nil _ _
  · rw [hothers, hd.reads]
    rfl

end Rivals

variable {keyPrefix : String}

theorem mem_events_render_rivals :
    rivalry keyPrefix ∈ ((rivals keyPrefix).render (.withPrefix keyPrefix)).events := by
  obtain ⟨layout, hlayout⟩ :=
    (exists_layout_iff (.withPrefix keyPrefix)).mpr (goodReferences_rivals keyPrefix)
  have hdeclared := declaredBy_draft (.withPrefix keyPrefix) (rivals keyPrefix)
    ⟨⟨"shop", "web", "80"⟩, false, []⟩
  rw [rulesFor_rivals] at hdeclared
  have htold := Annotations.mem_events_read_of_conflict? _ _ (conflict?_rivals hdeclared)
  rw [events_render hlayout, drafts_of_layout hlayout]
  -- One backend, which is updated behind no userlists.
  apply List.mem_append_right
  apply List.mem_append_left
  exact Draft.mem_events_update_of_read _ _ _ _ (by simp [Draft.mainKeys]) htold

theorem eq_of_carries_rivals {name : String}
    (h : (rivals keyPrefix).Carries ⟨"ingress", "shop", "first"⟩ name) :
    name = fullKey keyPrefix Key.waf := by
  obtain ⟨r, hr, hid, hname⟩ := h
  rcases List.mem_pair.mp hr with rfl | rfl
  · exact List.mem_singleton.mp hname
  · have hnames : "second" = "first" := congrArg ResourceId.name hid
    exact absurd hnames (by decide)

/-- The prefixes under which every conflict names an annotation that its resource carries are those
that a conflict puts back as they were cut off. Under any prefix, a conflict is about a key that its
resource carries behind the prefix, and the name that it gives is the one in its message. -/
theorem conflicts_name_annotations_iff (keyPrefix : String) :
    ((∀ (s : Snapshot) (settings : Settings), settings.keyPrefix = keyPrefix →
        s.NamesAnnotations settings) ↔ keyPrefix = "" ∨ EndsInOneSlash keyPrefix) ∧
      (∀ key own, ownKey? keyPrefix key = some own →
        (keyPrefix ++ own = key ↔ keyPrefix = "" ∨ EndsInOneSlash keyPrefix)) ∧
      (∀ (s : Snapshot) (settings : Settings), settings.keyPrefix = keyPrefix →
        ∀ e ∈ (s.render settings).conflicts, ∃ key source scope others,
          e = .conflict keyPrefix key source scope others ∧
            s.Carries source (fullKey keyPrefix key)) ∧
      ∀ (e : Event) (name : String) (source : ResourceId), e.named? = some (name, source) →
        e.level = .warn ∧
          ∃ rest, e.message = "annotation '" ++ name ++ "' from " ++ source.text ++ rest := by
  refine ⟨⟨?_, ?_⟩, ?_, ?_, ?_⟩
  · intro h
    have hcarried :=
      h (rivals keyPrefix) (.withPrefix keyPrefix) rfl _ mem_events_render_rivals _ _ rfl
    have hname := eq_of_carries_rivals hcarried
    exact eq_keyStart_iff.mp (append_eq_fullKey_iff.mp hname)
  · rintro hstart s settings rfl e he name source hnamed
    have hconflict : e.isConflict = true := by
      cases e with
      | conflict => rfl
      | _ => cases hnamed
    obtain ⟨key, source', scope, others, rfl, hcarried⟩ :=
      carries_of_mem_conflicts (List.mem_filter.mpr ⟨he, hconflict⟩)
    cases hnamed
    rwa [append_eq_fullKey_iff.mpr (eq_keyStart_iff.mpr hstart)]
  · intro key own hown
    obtain ⟨-, rfl⟩ := ownKey?_eq_some_iff.mp hown
    rw [append_eq_fullKey_iff, eq_keyStart_iff]
  · rintro s settings rfl e he
    exact carries_of_mem_conflicts he
  · intro e name source hnamed
    exact message_of_named? hnamed

theorem rivals_without_slash_name_nothing :
    (∃ rendered, ((rivals "ingress.kubernetes.io").render
      (.withPrefix "ingress.kubernetes.io")).value = .ok rendered) ∧
      (∃ e ∈ ((rivals "ingress.kubernetes.io").render (.withPrefix "ingress.kubernetes.io")).events,
        e.named? = some ("ingress.kubernetes.iowaf", ⟨"ingress", "shop", "first"⟩) ∧
        e.message = "annotation 'ingress.kubernetes.iowaf' from ingress 'shop/first' (path " ++
          "'a.test/') overrides the same annotation with distinct value from " ++
          "[ingress 'shop/second']") ∧
      ¬(rivals "ingress.kubernetes.io").Carries ⟨"ingress", "shop", "first"⟩
        "ingress.kubernetes.iowaf" := by
  refine ⟨?_, ⟨_, mem_events_render_rivals, ?_, by decide +kernel⟩, ?_⟩
  · exact (exists_render_iff _).mpr (goodReferences_rivals _)
  · have hname : "ingress.kubernetes.io" ++ Key.waf = "ingress.kubernetes.iowaf" := by decide
    rw [← hname]
    rfl
  · intro h
    exact absurd (eq_of_carries_rivals h) (by decide)

end Ingress
