-- The conflicts that readers tell. Declarations of a key disagree if two of them have different
-- values. Main statements: a reader tells of one conflict if the declarations disagree and of none
-- otherwise, with the sources beside the first value as they first appear; and conflicts stand
-- between resources exactly if the first resource declares one value at all its scopes.
import Ingress.Proofs.Counters
import Ingress.Proofs.FirstAppearance
import Ingress.Proofs.History
import Ingress.Proofs.ReadKeys
import Ingress.Proofs.Reading

namespace Ingress

open Declarations

/-! ## Declarations that disagree -/

/-- Whether two declarations have different values. -/
def Disagree (es : List Declaration) : Prop := ∃ e ∈ es, ∃ e' ∈ es, e.value ≠ e'.value

instance (es : List Declaration) : Decidable (Disagree es) :=
  inferInstanceAs (Decidable (∃ e ∈ es, ∃ e' ∈ es, e.value ≠ e'.value))

/-- The sources of the declarations with another value than the given one, in their order. -/
def sourcesBeside (value : String) (es : List Declaration) : List ResourceId :=
  (es.filter (·.value ≠ value)).map (·.source)

section Stored

variable {d : Declarations} {key : String} {first : Declaration} {es : List Declaration}

theorem mem_sourcesBeside {value : String} {source : ResourceId} :
    source ∈ sourcesBeside value es ↔ ∃ e ∈ es, e.value ≠ value ∧ e.source = source := by
  simp [sourcesBeside, and_assoc]

/-- Declarations disagree if one of them differs from the first. -/
theorem disagree_iff : Disagree es ↔ ∃ first ∈ es.head?, ∃ e ∈ es, e.value ≠ first.value := by
  cases es with
  | nil => simp [Disagree]
  | cons first rest =>
    simp only [List.head?_cons, Option.mem_some_iff, exists_eq_left']
    constructor
    · rintro ⟨e, he, e', he', hne⟩
      by_cases h : e.value = first.value
      · exact ⟨e', he', fun h' => hne (h.trans h'.symm)⟩
      · exact ⟨e, he, h⟩
    · rintro ⟨e, he, hne⟩
      exact ⟨e, he, first, List.mem_cons_self, hne⟩

/-- The sources that a conflict lists are those beside the first value, as they first appear. -/
theorem overridden_of_head? (h : first ∈ (d.ofKey key).head?) :
    d.overridden key = (sourcesBeside first.value (d.ofKey key)).eraseDups := by
  obtain ⟨rest, hcons⟩ := List.head?_eq_some_iff.mp h
  unfold overridden sourcesBeside
  rw [hcons]
  simp

theorem conflict?_eq_none_iff {a : Annotations} :
    a.conflict? key = none ↔ ¬Disagree (a.declared.ofKey key) := by
  rw [disagree_iff, Option.eq_none_iff_forall_ne_some]
  constructor
  · rintro h ⟨first, hfirst, e, he, hne⟩
    refine h _ (conflict?_eq_some_iff.mpr ⟨first, hfirst, ?_, rfl⟩)
    rw [overridden_of_head? hfirst]
    have hbeside := mem_sourcesBeside.mpr ⟨e, he, hne, rfl⟩
    exact List.ne_nil_of_mem (List.mem_eraseDups.mpr hbeside)
  · intro h event hevent
    obtain ⟨first, hfirst, hne, -⟩ := conflict?_eq_some_iff.mp hevent
    rw [overridden_of_head? hfirst] at hne
    obtain ⟨source, hsource⟩ := List.exists_mem_of_ne_nil _ hne
    obtain ⟨e, he, hne, -⟩ := mem_sourcesBeside.mp (List.mem_eraseDups.mp hsource)
    exact h ⟨first, hfirst, e, he, hne⟩

end Stored

/-! ## Reports -/

/-- The counter of the conflicts of a key. -/
def Count.conflictOf (key : String) : Count := ⟨.conflict, some ("annotation", key)⟩

/-- What is told of conflicts is right for the declarations of a key: one conflict if they disagree,
and none otherwise. -/
structure Reports (settings : Settings) (key : String) (es : List Declaration)
    (events : List Event) : Prop where
  silent : ¬Disagree es → ∀ e ∈ events, e.isConflict = false
  /-- The conflict is a warning about the first declaration. It lists the sources of declarations
  with other values, each once, by their first such declarations. -/
  told : Disagree es → ∃ first ∈ es.head?, ∃ sources,
    FirstAppearances sources (sourcesBeside first.value es) ∧
      ∃ conflict, events.filter (·.isConflict) = [conflict] ∧ conflict.level = .warn ∧
        conflict = .conflict settings.keyPrefix key first.source first.scope sources
  /-- It is counted for the key, and nothing is counted for other keys. -/
  counted : ∀ c, c.metric = .conflict →
    growth c events = if c = .conflictOf key ∧ Disagree es then 1 else 0

theorem isConflict_of_count? {e : Event} {c : Count} (h : e.count? = some c)
    (hc : c.metric = .conflict) : e.isConflict = true := by
  cases e with
  | conflict => rfl
  | _ => cases h <;> cases hc

/-- Conflicts alone make the counters of conflicts grow. -/
theorem growth_filter_isConflict {c : Count} (hc : c.metric = .conflict) (events : List Event) :
    growth c (events.filter (·.isConflict)) = growth c events :=
  growth_filter (fun _ h => isConflict_of_count? h hc) events

section Readers

variable {a : Annotations} {key : String}

/-- A step that tells of the conflict of a key and of no other one reports it rightly. -/
theorem reports_of_conflicts {α : Type} {x : Logged α}
    (h : x.conflicts = (a.conflict? key).toList) :
    Reports a.settings key (a.declared.ofKey key) x.events := by
  have hfilter : x.events.filter (·.isConflict) = (a.conflict? key).toList := h
  by_cases hdisagree : Disagree (a.declared.ofKey key)
  · have hsome : a.conflict? key ≠ none := fun hnone => conflict?_eq_none_iff.mp hnone hdisagree
    obtain ⟨event, hevent⟩ := Option.ne_none_iff_exists'.mp hsome
    obtain ⟨first, hfirst, -, rfl⟩ := conflict?_eq_some_iff.mp hevent
    rw [hevent] at hfilter
    exact {
      silent := fun hagree => absurd hdisagree hagree
      told := fun _ => ⟨first, hfirst, _, firstAppearances_iff.mpr (overridden_of_head? hfirst), _,
        hfilter, rfl, rfl⟩
      counted := by
        intro c hc
        rw [← growth_filter_isConflict hc, hfilter, growth_eq_countP]
        simp [Event.count?, Count.conflictOf, hdisagree, eq_comm] }
  · rw [conflict?_eq_none_iff.mpr hdisagree] at hfilter
    exact {
      silent := fun _ e he => by simpa using List.filter_eq_nil_iff.mp hfilter e he
      told := fun h => absurd h hdisagree
      counted := by
        intro c hc
        rw [← growth_filter_isConflict hc, hfilter, if_neg fun h => hdisagree h.2]
        rfl }

variable (a key)

theorem conflicts_readChecked : (a.readChecked key).conflicts = (a.conflict? key).toList := by
  unfold Annotations.readChecked
  rw [Logged.conflicts_bind, Annotations.conflicts_read]
  split
  · exact List.append_nil _
  · rw [Logged.conflicts_bind, Logged.conflicts_of_plain (plain_check a _ _ _)]
    split <;> exact List.append_nil _

theorem conflicts_readBool : (a.readBool key).conflicts = (a.conflict? key).toList := by
  unfold Annotations.readBool
  rw [Logged.conflicts_bind_pure, conflicts_readChecked]

theorem conflicts_readInt : (a.readInt key).conflicts = (a.conflict? key).toList := by
  unfold Annotations.readInt
  rw [Logged.conflicts_bind_pure, conflicts_readChecked]

/-- What the readers of a key for the whole backend tell, reader by reader. -/
def Annotations.told : List (List Event) :=
  [(a.read key).events, (a.readChecked key).events, (a.readBool key).events,
    (a.readInt key).events]

theorem reports_of_mem_told {events : List Event} (h : events ∈ a.told key) :
    Reports a.settings key (a.declared.ofKey key) events := by
  simp only [Annotations.told, List.mem_cons, List.not_mem_nil, or_false] at h
  rcases h with rfl | rfl | rfl | rfl
  · exact reports_of_conflicts (a.conflicts_read key)
  · exact reports_of_conflicts (conflicts_readChecked a key)
  · exact reports_of_conflicts (conflicts_readBool a key)
  · exact reports_of_conflicts (conflicts_readInt a key)

end Readers

/-- A reader for the whole backend gives the value and the source of the first declaration, or the
default where nothing is declared or the value is not of the kind that the annotation is bound to.
It tells of one conflict if the declarations disagree, and of none otherwise. -/
theorem readers_report_a_disagreement_once (a : Annotations) (key : String) :
    let stored := a.declared.ofKey key
    let reading := a.settings.firstReading key stored
    let checked := a.settings.checked key reading
    ((a.read key).value = reading ∧ (a.readChecked key).value = checked ∧
      (a.readBool key).value = checked.toBool ∧ (a.readInt key).value = checked.toInt) ∧
    ∀ events ∈ a.told key, Reports a.settings key stored events := by
  dsimp only
  have hread : (a.read key).value = a.settings.firstReading key (a.declared.ofKey key) :=
    a.value_read key
  rw [← hread]
  exact ⟨⟨rfl, a.value_readChecked key, a.value_readBool key, a.value_readInt key⟩,
    fun events => reports_of_mem_told a key⟩

/-- Annotations that declare no truth value where strict transport is on by default. -/
def vagueTransport : Annotations where
  settings := { Settings.plain with defaults := .ofList [(Key.hsts, "true")] }
  declared := .ofCalls [.one ⟨Key.hsts, ⟨"ingress", "shop", "first"⟩, "a.test/", "yes"⟩]

theorem vague_transport_reads_as_default :
    vagueTransport.declared.ofKey Key.hsts =
        [⟨Key.hsts, ⟨"ingress", "shop", "first"⟩, "a.test/", "yes"⟩] ∧
      (vagueTransport.readChecked Key.hsts).value = ⟨"true", none⟩ ∧
      (vagueTransport.readBool Key.hsts).value = true ∧
      (vagueTransport.settings.firstReading Key.hsts
        (vagueTransport.declared.ofKey Key.hsts)).toBool = false := by
  decide

/-! ## Resources -/

/-- Whether two resources declare different values. -/
def ResourcesDiffer (es : List Declaration) : Prop :=
  ∃ e ∈ es, ∃ e' ∈ es, e.source ≠ e'.source ∧ e.value ≠ e'.value

/-- Whether all declarations come from one resource. -/
def OneSource (es : List Declaration) : Prop := ∀ e ∈ es, ∀ e' ∈ es, e.source = e'.source

/-- Whether the resource that declares first has one value at all its scopes. -/
def FirstIsConstant (es : List Declaration) : Prop :=
  ∀ first ∈ es.head?, ∀ e ∈ es, e.source = first.source → e.value = first.value

/-- The conflicts of a key stand between resources: none lists the source that it is about, none is
counted unless two resources declare different values, and one resource alone has none. -/
structure BetweenResources (calls : List Call) (key : String) (events : List Event) : Prop where
  aside : ∀ keyPrefix key' source scope others,
    .conflict keyPrefix key' source scope others ∈ events → source ∉ others
  rivals : growth (.conflictOf key) events ≠ 0 → ResourcesDiffer (historyOf calls key)
  alone : OneSource (historyOf calls key) → ∀ e ∈ events, e.isConflict = false

section Resources

variable {settings : Settings} {calls : List Call} {key : String} {es : List Declaration}
  {events : List Event}

/-- Declarations that disagree are those of different resources or of one resource. -/
theorem resourcesDiffer_or_oneSource (h : Disagree es) : ResourcesDiffer es ∨ OneSource es := by
  obtain ⟨e, he, e', he', hne⟩ := h
  by_cases hdiffer : ResourcesDiffer es
  · exact .inl hdiffer
  · have hsame : ∀ x ∈ es, ∀ y ∈ es, x.value ≠ y.value → x.source = y.source := by
      intro x hx y hy hxy
      by_contra hsource
      exact hdiffer ⟨x, hx, y, hy, hsource, hxy⟩
    -- any third value differs from one of the two
    have hall : ∀ x ∈ es, x.source = e.source := by
      intro x hx
      by_cases hxe : x.value = e.value
      · rw [hsame x hx e' he' (hxe ▸ hne), hsame e he e' he' hne]
      · exact hsame x hx e he hxe
    exact .inr fun x hx y hy => (hall x hx).trans (hall y hy).symm

theorem Reports.growth_ne_zero_iff (h : Reports settings key es events) :
    growth (.conflictOf key) events ≠ 0 ↔ Disagree es := by
  rw [h.counted _ rfl]
  by_cases hdisagree : Disagree es <;> simp [hdisagree]

/-- A conflict that is told lists the sources beside the first value. -/
theorem Reports.mem_others_iff (h : Reports settings key es events) {keyPrefix key' scope : String}
    {source : ResourceId} {others : List ResourceId}
    (he : .conflict keyPrefix key' source scope others ∈ events) :
    ∃ first ∈ es.head?, source = first.source ∧
      ∀ other, other ∈ others ↔ ∃ e ∈ es, e.value ≠ first.value ∧ e.source = other := by
  have hdisagree : Disagree es := by
    by_contra hagree
    cases h.silent hagree _ he
  obtain ⟨first, hfirst, sources, hsources, conflict, hfilter, -, rfl⟩ := h.told hdisagree
  have hmem : _ ∈ events.filter (·.isConflict) := List.mem_filter.mpr ⟨he, rfl⟩
  rw [hfilter] at hmem
  cases List.mem_singleton.mp hmem
  exact ⟨first, hfirst, rfl, fun other => (hsources.mem other).trans mem_sourcesBeside⟩

theorem Reports.exists_conflict (h : Reports settings key es events) (hdisagree : Disagree es) :
    ∃ first ∈ es.head?, ∃ others,
      .conflict settings.keyPrefix key first.source first.scope others ∈ events := by
  obtain ⟨first, hfirst, sources, -, conflict, hfilter, -, rfl⟩ := h.told hdisagree
  refine ⟨first, hfirst, sources, ?_⟩
  have hmem : _ ∈ events.filter (·.isConflict) := hfilter ▸ List.mem_singleton_self _
  exact List.mem_of_mem_filter hmem

theorem betweenResources_iff (h : Reports settings key es events)
    (hstored : es = (ofCalls calls).ofKey key) :
    BetweenResources calls key events ↔ FirstIsConstant es := by
  have hdeclared : ∀ e ∈ es, e ∈ historyOf calls key := by
    intro e he
    exact mem_historyOf_of_mem_ofKey (hstored ▸ he)
  constructor
  · intro hbetween first hfirst e he hsource
    by_contra hne
    obtain ⟨first', hfirst', others, htold⟩ :=
      h.exists_conflict (disagree_iff.mpr ⟨first, hfirst, e, he, hne⟩)
    obtain ⟨first'', hfirst'', -, hothers⟩ := h.mem_others_iff htold
    cases Option.mem_unique hfirst hfirst'
    cases Option.mem_unique hfirst hfirst''
    exact hbetween.aside _ _ _ _ _ htold ((hothers _).mpr ⟨e, he, hne, hsource⟩)
  · intro hconstant
    exact {
      aside := by
        intro keyPrefix key' source scope others htold hlisted
        obtain ⟨first, hfirst, rfl, hothers⟩ := h.mem_others_iff htold
        obtain ⟨e, he, hne, hsource⟩ := (hothers _).mp hlisted
        exact hne (hconstant first hfirst e he hsource)
      rivals := by
        intro hcounted
        obtain ⟨first, hfirst, e, he, hne⟩ := disagree_iff.mp (h.growth_ne_zero_iff.mp hcounted)
        have hsource : e.source ≠ first.source :=
          fun hsame => hne (hconstant first hfirst e he hsame)
        exact ⟨e, hdeclared e he, first, hdeclared first (List.mem_of_head? hfirst), hsource, hne⟩
      alone := by
        intro hone
        refine h.silent fun hdisagree => ?_
        obtain ⟨first, hfirst, e, he, hne⟩ := disagree_iff.mp hdisagree
        have hsource := hone e (hdeclared e he) first (hdeclared first (List.mem_of_head? hfirst))
        exact hne (hconstant first hfirst e he hsource) }

/-- A conflict of one resource with itself lists that resource. -/
theorem others_of_oneSource (h : Reports settings key es events) (hone : OneSource es)
    (hdisagree : Disagree es) : ∃ first ∈ es.head?, events.filter (·.isConflict) =
      [.conflict settings.keyPrefix key first.source first.scope [first.source]] := by
  obtain ⟨first, hfirst, sources, hsources, conflict, hfilter, -, rfl⟩ := h.told hdisagree
  have hmem : ∀ source, source ∈ sources ↔ source ∈ [first.source] := by
    intro source
    rw [hsources.mem, mem_sourcesBeside, List.mem_singleton]
    constructor
    · rintro ⟨e, he, -, rfl⟩
      exact hone e he first (List.mem_of_head? hfirst)
    · rintro rfl
      obtain ⟨first', hfirst', e, he, hne⟩ := disagree_iff.mp hdisagree
      cases Option.mem_unique hfirst hfirst'
      exact ⟨e, he, hne, hone e he first (List.mem_of_head? hfirst)⟩
  have hsingle : sources = [first.source] :=
    ((List.perm_ext_iff_of_nodup hsources.once (List.nodup_singleton _)).mpr hmem).eq_singleton
  exact ⟨first, hfirst, hsingle ▸ hfilter⟩

end Resources

/-- Conflicts of a key stand between resources exactly if the resource that declares first has one
value at all its scopes. What disagrees without two resources that differ comes from one resource,
which is then told that it overrides itself. -/
theorem conflicts_stand_between_resources_iff (settings : Settings) (calls : List Call)
    (key : String) :
    let stored := (ofCalls calls).ofKey key
    stored = firstAtScopes (historyOf calls key) ∧
    ∀ events ∈ Annotations.told ⟨settings, ofCalls calls⟩ key,
      (BetweenResources calls key events ↔ FirstIsConstant stored) ∧
      (growth (.conflictOf key) events ≠ 0 ↔ Disagree stored) ∧
      (Disagree stored → ¬ResourcesDiffer stored → ∃ first ∈ stored.head?,
        events.filter (·.isConflict) =
          [.conflict settings.keyPrefix key first.source first.scope [first.source]]) := by
  refine ⟨ofKey_ofCalls calls key, fun events htold => ?_⟩
  have hreports := reports_of_mem_told ⟨settings, ofCalls calls⟩ key htold
  refine ⟨betweenResources_iff hreports rfl, hreports.growth_ne_zero_iff, ?_⟩
  intro hdisagree hsame
  exact others_of_oneSource hreports
    ((resourcesDiffer_or_oneSource hdisagree).resolve_left hsame) hdisagree

/-- A resource that wants a firewall on one host and none on another. -/
def twoMinds : List Call := [
  .one ⟨Key.waf, ⟨"ingress", "shop", "both"⟩, "a.test/", "modsecurity"⟩,
  .one ⟨Key.waf, ⟨"ingress", "shop", "both"⟩, "b.test/", "off"⟩]

theorem two_minds_override_themselves :
    let events := (Annotations.read ⟨.plain, ofCalls twoMinds⟩ Key.waf).events
    OneSource (historyOf twoMinds Key.waf) ∧
      events = [.conflict "" Key.waf ⟨"ingress", "shop", "both"⟩ "a.test/"
        [⟨"ingress", "shop", "both"⟩]] ∧
      growth (.conflictOf Key.waf) events = 1 ∧ ¬BetweenResources twoMinds Key.waf events := by
  have hone : OneSource (historyOf twoMinds Key.waf) := by
    unfold OneSource
    decide
  have hevents : (Annotations.read ⟨.plain, ofCalls twoMinds⟩ Key.waf).events =
      [.conflict "" Key.waf ⟨"ingress", "shop", "both"⟩ "a.test/"
        [⟨"ingress", "shop", "both"⟩]] := by decide
  dsimp only
  rw [hevents]
  refine ⟨hone, rfl, by decide, fun hbetween => ?_⟩
  exact hbetween.aside _ _ _ _ _ (List.mem_singleton_self _) (List.mem_singleton_self _)

end Ingress
