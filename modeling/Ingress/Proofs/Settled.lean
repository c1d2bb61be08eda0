-- The values that declarations settle. A reader for the whole backend takes the first declaration
-- of a key, a path takes the one at its hostpath, and both treat it by one rule: its value counts
-- if it is of the kind of the key, and the default stands in otherwise. Main statement: a path and
-- the readers for the whole backend that take the same declaration find the same value, and they
-- tell the same of it.
import Ingress.Proofs.Counters
import Ingress.Proofs.Partition
import Ingress.Proofs.Reading

namespace Ingress

/-- Whether an event tells of a value that is not of the kind of its key. -/
def Event.isInvalidValue : Event → Bool
  | .invalidValue .. => true
  | _ => false

/-- The counter of the values of a key that are not of its kind. -/
def Count.invalidOf (key : String) : Count := ⟨.invalidValue, some ("annotation", key)⟩

namespace Settings

variable (s : Settings) (key : String)

/-- Whether there is a declaration and its value is not of the kind of its key. -/
def Refuses (d? : Option Declaration) : Prop := ∃ d ∈ d?, s.accepts key d.value = false

instance (d? : Option Declaration) : Decidable (s.Refuses key d?) :=
  inferInstanceAs (Decidable (∃ d ∈ d?, s.accepts key d.value = false))

variable {s key} {d? : Option Declaration}

theorem refusal?_eq_none_iff : s.refusal? key d? = none ↔ ¬s.Refuses key d? := by
  rw [Option.eq_none_iff_forall_ne_some]
  constructor
  · rintro h ⟨d, hd, hrefused⟩
    obtain ⟨kind, hkind, haccepts⟩ := accepts_eq_false_iff.mp hrefused
    exact h _ (refusal?_eq_some_iff.mpr ⟨d, hd, kind, hkind, haccepts, rfl⟩)
  · rintro h e he
    obtain ⟨d, hd, kind, hkind, haccepts, -⟩ := refusal?_eq_some_iff.mp he
    exact h ⟨d, hd, accepts_eq_false_iff.mpr ⟨kind, hkind, haccepts⟩⟩

/-- A refusal is counted for its key. -/
theorem growth_refusal? (c : Count) : growth c (s.refusal? key d?).toList =
    if c = .invalidOf key ∧ s.Refuses key d? then 1 else 0 := by
  by_cases hrefuses : s.Refuses key d?
  · have hsome : s.refusal? key d? ≠ none := fun hnone => refusal?_eq_none_iff.mp hnone hrefuses
    obtain ⟨e, he⟩ := Option.ne_none_iff_exists'.mp hsome
    obtain ⟨d, -, kind, -, -, rfl⟩ := refusal?_eq_some_iff.mp he
    simp [he, hrefuses, growth_eq_countP, Event.count?, Count.invalidOf, eq_comm]
  · simp [refusal?_eq_none_iff.mpr hrefuses, hrefuses, growth_eq_countP]

end Settings

/-! ## What is told -/

/-- What is told of a declaration of a key is right, if there is one: its value is refused with one
warning, which is counted for the key, or it is of the kind of the key and nothing is told. -/
structure TellsRefusal (settings : Settings) (key : String) (d? : Option Declaration)
    (events : List Event) : Prop where
  silent : ¬settings.Refuses key d? → ∀ e ∈ events, e.isInvalidValue = false
  told : ∀ d ∈ d?, ∀ kind ∈ settings.kind? key, kind.accepts d.value = false →
    ∃ warning, events.filter (·.isInvalidValue) = [warning] ∧ warning.level = .warn ∧
      warning = .invalidValue key kind d.source d.value
  /-- It is counted for the key, and nothing is counted for other keys. -/
  counted : ∀ c, c.metric = .invalidValue →
    growth c events = if c = .invalidOf key ∧ settings.Refuses key d? then 1 else 0

theorem isInvalidValue_of_count? {e : Event} {c : Count} (h : e.count? = some c)
    (hc : c.metric = .invalidValue) : e.isInvalidValue = true := by
  cases e with
  | invalidValue => rfl
  | _ => cases h <;> cases hc

theorem tellsRefusal_of_filter {settings : Settings} {key : String} {d? : Option Declaration}
    {events : List Event}
    (h : events.filter (·.isInvalidValue) = (settings.refusal? key d?).toList) :
    TellsRefusal settings key d? events where
  silent := by
    intro hnone e he
    rw [Settings.refusal?_eq_none_iff.mpr hnone] at h
    simpa using List.filter_eq_nil_iff.mp h e he
  told := by
    intro d hd kind hkind haccepts
    rw [Settings.refusal?_eq_some_iff.mpr ⟨d, hd, kind, hkind, haccepts, rfl⟩] at h
    exact ⟨_, h, rfl, rfl⟩
  counted := by
    intro c hc
    rw [← growth_filter fun e he => isInvalidValue_of_count? he hc, h, Settings.growth_refusal?]

/-! ## Readers and paths -/

namespace Annotations

variable (a : Annotations) (key : String)

theorem value_value_readChecked : (a.readChecked key).value.value =
    a.settings.settled key (a.declared.canonical? key) := by
  rw [value_readChecked, value_read, canonical]
  unfold Settings.checked Settings.settled Declarations.canonical?
  cases a.declared.ofKey key with
  | nil => rfl
  | cons first rest =>
    cases h : a.settings.accepts key first.value <;> simp [Settings.firstReading, h]

theorem tellsRefusal_resolve (p : RoutePath) :
    TellsRefusal a.settings key (a.declared.at? key p.hostpath) (a.resolve key p).events := by
  apply tellsRefusal_of_filter
  rw [events_resolve, List.filter_eq_self]
  intro e he
  obtain ⟨d, -, kind, -, -, rfl⟩ := Settings.refusal?_eq_some_iff.mp (Option.mem_toList.mp he)
  rfl

theorem filter_isInvalidValue_read : (a.read key).events.filter (·.isInvalidValue) = [] := by
  unfold read
  cases a.declared.canonical? key with
  | none => rfl
  | some first => by_cases h : a.declared.overridden key = [] <;> simp [h, Event.isInvalidValue]

theorem filter_isInvalidValue_readChecked :
    (a.readChecked key).events.filter (·.isInvalidValue) =
      (a.settings.refusal? key (a.declared.canonical? key)).toList := by
  unfold readChecked Settings.refusal? Declarations.canonical?
  rw [Logged.events_bind, List.filter_append, filter_isInvalidValue_read, List.nil_append,
    value_read, canonical]
  cases a.declared.ofKey key with
  | nil => rfl
  | cons first rest =>
    simp only [Settings.firstReading, Logged.events_bind, events_check]
    -- behind the check there is only the choice of a reading
    have hlast : ∀ accepted : Bool, (if accepted = true then pure ⟨first.value, some first.source⟩
        else pure (a.defaultReading key) : Logged Reading).events = [] := by
      intro accepted
      cases accepted <;> rfl
    rw [hlast, List.append_nil, List.head?_cons, Option.bind_some, List.filter_eq_self]
    intro e he
    obtain ⟨kind, -, -, rfl⟩ := Settings.invalid?_eq_some_iff.mp (Option.mem_toList.mp he)
    rfl

theorem tellsRefusal_readBool :
    TellsRefusal a.settings key (a.declared.canonical? key) (a.readBool key).events := by
  apply tellsRefusal_of_filter
  unfold readBool
  simp [filter_isInvalidValue_readChecked]

theorem tellsRefusal_readInt :
    TellsRefusal a.settings key (a.declared.canonical? key) (a.readInt key).events := by
  apply tellsRefusal_of_filter
  unfold readInt
  simp [filter_isInvalidValue_readChecked]

/-! ## Groups of paths -/

theorem divides_group (paths : PathSet) :
    Divides (paths.valued fun p => a.valueAt key p.hostpath) (a.group paths key).value := by
  have hdivides := divides_value_groupBy paths (a.resolve key)
  simp only [value_resolve] at hdivides
  exact hdivides

end Annotations

/-- A path takes the first declaration of a key if it stands at its hostpath. -/
theorem at?_eq_canonical? {d : Declarations} {key scope : String}
    (h : d.canonical? key = none ∨ ∃ first ∈ d.canonical? key, first.scope = scope) :
    d.at? key scope = d.canonical? key := by
  unfold Declarations.at? Declarations.canonical? at *
  cases hes : d.ofKey key with
  | nil => rfl
  | cons first rest =>
    rw [hes] at h
    rcases h with hnone | ⟨first', hfirst, rfl⟩
    · cases hnone
    · cases hfirst
      simp

/-- A path on which a key is declared first, or on which an undeclared key is resolved, has the
value that the readers for the whole backend read, and they tell the same of the declaration. -/
theorem readers_agree_with_the_path_declared_first (a : Annotations) (key : String)
    (paths : PathSet) (p : RoutePath) (hp : p ∈ paths.toList)
    (hfirst : a.declared.canonical? key = none ∨
      ∃ first ∈ a.declared.canonical? key, first.scope = p.hostpath) :
    let groups := (a.group paths key).value
    ((∃ group ∈ groups, p ∈ group.paths.toList) ∧
      ∀ group ∈ groups, p ∈ group.paths.toList →
        (a.readBool key).value = (readBool? group.config).getD false ∧
        (a.readInt key).value = (Text.integer? group.config).getD 0) ∧
    (a.group paths key).events = paths.toList.flatMap (fun q => (a.resolve key q).events) ∧
    ∀ events ∈ [(a.resolve key p).events, (a.readBool key).events, (a.readInt key).events],
      TellsRefusal a.settings key (a.declared.canonical? key) events := by
  dsimp only
  have hsame := at?_eq_canonical? hfirst
  have hdivides := a.divides_group key paths
  refine ⟨⟨?_, ?_⟩, a.events_group key paths, ?_⟩
  · exact hdivides.exists_group_iff.mpr hp
  · intro group hgroup hin
    have hvalue : group.config = (a.readChecked key).value.value := by
      rw [← ((hdivides.mem_iff hgroup).mp hin).2, Annotations.valueAt, hsame,
        a.value_value_readChecked]
    rw [hvalue]
    exact ⟨rfl, rfl⟩
  · simp only [List.forall_mem_cons, List.not_mem_nil, false_implies, implies_true, and_true]
    exact ⟨hsame ▸ a.tellsRefusal_resolve key p, a.tellsRefusal_readBool key,
      a.tellsRefusal_readInt key⟩

/-- Annotations of a shop that is secure by default. The first path declares no truth value, and the
last one turns security off. -/
def vagueShop : Annotations where
  settings := { Settings.plain with defaults := .ofList [(Key.hsts, "true")] }
  declared := Declarations.empty
    |>.add ⟨Key.hsts, ⟨"ingress", "shop", "first"⟩, "a.test/", "yes"⟩
    |>.add ⟨Key.hsts, ⟨"ingress", "shop", "second"⟩, "b.test/", "false"⟩

theorem vague_shop_agrees_on_its_first_path :
    let p : RoutePath := ⟨"3", "a.test/", "/"⟩
    (p ∈ threePaths.toList ∧
      ∃ first ∈ vagueShop.declared.canonical? Key.hsts, first.scope = p.hostpath) ∧
    (∃ group ∈ (vagueShop.group threePaths Key.hsts).value, p ∈ group.paths.toList ∧
      (vagueShop.readBool Key.hsts).value = (readBool? group.config).getD false) ∧
    (vagueShop.readBool Key.hsts).value = true ∧
    growth (.invalidOf Key.hsts) (vagueShop.resolve Key.hsts p).events = 1 ∧
    growth (.invalidOf Key.hsts) (vagueShop.readBool Key.hsts).events = 1 := by
  intro p
  have hp : p ∈ threePaths.toList := by decide
  have hfirst : ∃ first ∈ vagueShop.declared.canonical? Key.hsts, first.scope = p.hostpath := by
    decide
  have hrefuses : vagueShop.settings.Refuses Key.hsts (vagueShop.declared.canonical? Key.hsts) := by
    decide
  obtain ⟨⟨⟨group, hgroup, hin⟩, hvalue⟩, -, htold⟩ :=
    readers_agree_with_the_path_declared_first vagueShop Key.hsts threePaths p hp (.inr hfirst)
  refine ⟨⟨hp, hfirst⟩, ⟨group, hgroup, hin, (hvalue group hgroup hin).1⟩, by decide, ?_, ?_⟩
  · rw [(htold _ (by simp)).counted _ rfl, if_pos ⟨rfl, hrefuses⟩]
  · rw [(htold _ (by simp)).counted _ rfl, if_pos ⟨rfl, hrefuses⟩]

/-! ## Counts on all paths -/

namespace Annotations

variable (a : Annotations) (keys : List String) (key : String)

theorem growth_resolve (p : RoutePath) (c : Count) : growth c (a.resolve key p).events =
    if c = .invalidOf key ∧ a.settings.Refuses key (a.declared.at? key p.hostpath) then 1
    else 0 := by
  rw [events_resolve, Settings.growth_refusal?]

/-- A key is counted on a path as often as it is resolved, if its value is refused there. -/
theorem growth_resolveAll (p : RoutePath) :
    growth (.invalidOf key) (keys.flatMap fun own => (a.resolve own p).events) =
      if a.settings.Refuses key (a.declared.at? key p.hostpath) then keys.count key else 0 := by
  induction keys with
  | nil => simp [growth_eq_countP]
  | cons own keys ih =>
    rw [List.flatMap_cons, growth_append, growth_resolve, ih, List.count_cons]
    by_cases hown : own = key
    · subst hown
      by_cases hrefuses : a.settings.Refuses own (a.declared.at? own p.hostpath) <;>
        simp [hrefuses, Nat.add_comm]
    · have hcount : Count.invalidOf key ≠ Count.invalidOf own := by
        simp [Count.invalidOf, Ne.symm hown]
      simp [hown, hcount]

/-- A key is counted once for each path on which its value is refused. -/
theorem growth_groupWith {α : Type} [DecidableEq α] (paths : PathSet)
    (convert : Table String → α) :
    growth (.invalidOf key) (a.groupWith paths keys convert).events = keys.count key *
      paths.toList.countP fun p => a.settings.Refuses key (a.declared.at? key p.hostpath) := by
  rw [events_groupWith]
  induction paths.toList with
  | nil => simp [growth_eq_countP]
  | cons p paths ih =>
    rw [List.flatMap_cons, growth_append, growth_resolveAll, ih, List.countP_cons]
    split <;> simp [*, Nat.mul_add, Nat.add_comm]

end Annotations

end Ingress
