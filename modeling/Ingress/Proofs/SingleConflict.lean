-- How often an update tells of the conflict of a key. A conflict is told wherever a key is read for
-- the whole backend, so it counts how often that happens. Main statement: an update tells of the
-- conflict of a key at most once; it does so for the keys that ask for a feature, and it never does
-- so for keys that are resolved on each path. That each warning is one count is no part of the
-- argument: an event carries its counter.
import Ingress.Proofs.Disagreement

namespace Ingress

/-! ## Conflicts of a key -/

/-- Whether an event tells of a conflict of a key. -/
def Event.isConflictOf (key : String) : Event → Bool
  | .conflict _ own _ _ _ => own = key
  | _ => false

variable {a : Annotations} {key : String} {e : Event}

theorem isConflict_of_isConflictOf (h : e.isConflictOf key = true) : e.isConflict = true := by
  cases e with
  | conflict => rfl
  | _ => cases h

theorem count?_eq_some_conflictOf_iff : e.count? = some (.conflictOf key) ↔
    e.isConflictOf key = true := by
  cases e <;> simp [Event.count?, Event.rejected?, Event.isConflictOf, Count.conflictOf]

/-- The conflicts of a key are counted one by one. -/
theorem growth_conflictOf (key : String) (events : List Event) :
    growth (.conflictOf key) events = (events.filter (·.isConflictOf key)).length := by
  rw [growth_eq_countP, List.countP_eq_length_filter]
  simp [count?_eq_some_conflictOf_iff]

theorem isConflictOf_of_conflict? {own : String} (h : a.conflict? own = some e) :
    e.isConflictOf key = decide (own = key) := by
  obtain ⟨first, -, -, rfl⟩ := conflict?_eq_some_iff.mp h
  rfl

/-- A key that is read once has its conflict told once. -/
theorem filter_isConflictOf_filterMap {read : List String} (hnodup : read.Nodup) :
    (read.filterMap a.conflict?).filter (·.isConflictOf key) =
      if key ∈ read then (a.conflict? key).toList else [] := by
  induction read with
  | nil => rfl
  | cons own read ih =>
    obtain ⟨hnew, hread⟩ := List.nodup_cons.mp hnodup
    rw [List.filterMap_cons]
    cases hown : a.conflict? own with
    | none =>
      dsimp only
      rw [ih hread]
      by_cases hkey : key = own
      · simp [hkey, hown, hnew]
      · simp [hkey]
    | some conflict =>
      dsimp only
      rw [List.filter_cons, isConflictOf_of_conflict? hown, ih hread]
      by_cases hkey : own = key
      · subst hkey
        simp [hnew, hown]
      · simp [hkey, Ne.symm hkey]

namespace Annotations.Reads

/-- A step that reads some keys, none of them twice, tells of the conflict of a key once or not at
all, and not at all if it does not read the key. -/
theorem conflictsOf {α : Type} {x : Logged α} {keys : List String} (h : a.Reads keys x)
    (hnodup : keys.Nodup) (key : String) :
    x.events.filter (·.isConflictOf key) = [] ∨
      key ∈ keys ∧ x.events.filter (·.isConflictOf key) = (a.conflict? key).toList := by
  obtain ⟨read, hsublist, hconflicts⟩ := h
  have hfilter : x.events.filter (·.isConflictOf key) =
      x.conflicts.filter (·.isConflictOf key) := by
    unfold Logged.conflicts
    rw [List.filter_filter]
    refine List.filter_congr fun e _ => ?_
    cases hown : e.isConflictOf key with
    | false => rfl
    | true => rw [isConflict_of_isConflictOf hown]; rfl
  rw [hfilter, hconflicts, filter_isConflictOf_filterMap (hsublist.nodup hnodup)]
  split
  · next hread => exact .inr ⟨hsublist.subset hread, rfl⟩
  · exact .inl rfl

end Annotations.Reads

/-! ## Keys of an update -/

namespace Draft

variable (d : Draft)

/-- The keys that an update resolves on each path. -/
def pathKeys : List String :=
  Key.rewriteTarget :: StrictTransport.keys ++ if d.backend.tcp then [] else [Key.sourceRange]

theorem nodup_readKeys : d.readKeys.Nodup := by
  unfold readKeys rangeKeys
  cases d.backend.tcp <;> decide

theorem not_mem_readKeys : ∀ key ∈ d.pathKeys, key ∉ d.readKeys := by
  unfold pathKeys readKeys rangeKeys
  cases d.backend.tcp <;> decide

end Draft

/-! ## The law -/

/-- What is told of the conflict of a key is told once: the events have at most one conflict of the
key, a warning about its first declaration, and count it once. -/
structure ToldOnce (a : Annotations) (key : String) (events : List Event) : Prop where
  once : growth (.conflictOf key) events ≤ 1
  /-- This holds of every list of events, because `Event.count?` reads the counter off the event. -/
  paired : (events.filter (·.isConflictOf key)).length = growth (.conflictOf key) events
  warned : ∀ e ∈ events, e.isConflictOf key = true → e.level = .warn ∧ a.conflict? key = some e

theorem toldOnce_of_filter {events : List Event} {told : Option Event}
    (htold : ∀ e ∈ told, a.conflict? key = some e)
    (hfilter : events.filter (·.isConflictOf key) = told.toList) : ToldOnce a key events where
  once := by
    rw [growth_conflictOf, hfilter]
    cases told <;> simp
  paired := (growth_conflictOf key events).symm
  warned := by
    intro e he hown
    have hmem : e ∈ events.filter (·.isConflictOf key) := List.mem_filter.mpr ⟨he, hown⟩
    rw [hfilter, Option.mem_toList] at hmem
    have hconflict := htold e hmem
    obtain ⟨first, -, -, rfl⟩ := conflict?_eq_some_iff.mp hconflict
    exact ⟨rfl, hconflict⟩

/-- Where a key is read its conflict is told exactly if its declarations disagree. -/
theorem ToldOnce.growth_of_read {events : List Event} (h : ToldOnce a key events)
    (hread : (a.read key).events ⊆ events) : growth (.conflictOf key) events =
      if Disagree (a.declared.ofKey key) then 1 else 0 := by
  split
  · next hdisagree =>
    have hsome : a.conflict? key ≠ none := fun hnone => conflict?_eq_none_iff.mp hnone hdisagree
    obtain ⟨e, he⟩ := Option.ne_none_iff_exists'.mp hsome
    have hown : e.isConflictOf key = true := by simp [isConflictOf_of_conflict? he]
    have hmem : e ∈ events.filter (·.isConflictOf key) :=
      List.mem_filter.mpr ⟨hread (a.mem_events_read_of_conflict? key he), hown⟩
    have hpos := List.length_pos_of_mem hmem
    rw [h.paired] at hpos
    exact Nat.le_antisymm h.once hpos
  · next hagree =>
    apply growth_eq_zero
    intro e he hcount
    have hconflict := (h.warned e he (count?_eq_some_conflictOf_iff.mp hcount)).2
    rw [conflict?_eq_none_iff.mpr hagree] at hconflict
    cases hconflict

/-- An update tells of the conflict of each key at most once, with one warning for each count. It
tells of none for a key that it resolves on each path, and for a main key it tells of one exactly if
the declarations disagree. -/
theorem conflicts_are_told_once (d : Draft) (cluster : ClusterView) (routes : RouteTable)
    (lists : List Userlist) :
    let events := (d.update cluster routes lists).events
    (∀ key, ToldOnce d.annotations key events) ∧
    (∀ key ∈ d.pathKeys, growth (.conflictOf key) events = 0 ∧
      ∀ e ∈ events, e.isConflictOf key = false) ∧
    ∀ key ∈ d.mainKeys, growth (.conflictOf key) events =
      if Disagree (d.annotations.declared.ofKey key) then 1 else 0 := by
  intro events
  have hreads := d.reads_update cluster routes lists
  have htold : ∀ key, ToldOnce d.annotations key events := by
    intro key
    rcases hreads.conflictsOf d.nodup_readKeys key with hnone | ⟨-, hone⟩
    · have hempty : events.filter (·.isConflictOf key) = (none : Option Event).toList := hnone
      exact toldOnce_of_filter (fun e he => by cases he) hempty
    · exact toldOnce_of_filter (fun e he => he) hone
  refine ⟨htold, ?_, ?_⟩
  · intro key hkey
    rcases hreads.conflictsOf d.nodup_readKeys key with hnone | ⟨hread, -⟩
    · refine ⟨by rw [growth_conflictOf, hnone, List.length_nil], ?_⟩
      simpa using List.filter_eq_nil_iff.mp hnone
    · exact absurd hread (d.not_mem_readKeys key hkey)
  · intro key hkey
    exact (htold key).growth_of_read fun e he =>
      d.mem_events_update_of_read cluster routes lists hkey he

end Ingress
