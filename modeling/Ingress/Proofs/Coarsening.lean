-- Groups of paths by what a function makes of their values. Main statement: such a grouping merges
-- the groups of the values that have one image, with the paths of these groups united and the
-- groups in the order of their first paths; and grouping by one annotation is grouping by the table
-- that holds nothing else. The events are the same, for the same values are resolved.
import Ingress.Proofs.Settled

namespace Ingress

/-! ## Groups with other values -/

/-- The paths of a group with what a function makes of their value. -/
def PathGroup.map {α β : Type} (f : α → β) (group : PathGroup α) : PathGroup β :=
  ⟨group.paths, f group.config⟩

/-! ## The order of groups -/

/-- The first path of a group stands before the first path of another one. -/
def PathGroup.Before {α : Type} (group other : PathGroup α) : Prop :=
  ∃ p ∈ group.paths.toList.head?, ∃ q ∈ other.paths.toList.head?, p.hostpath < q.hostpath

theorem PathGroup.Before.asymm {α : Type} {group other : PathGroup α} (h : group.Before other) :
    ¬other.Before group := by
  obtain ⟨p, hp, q, hq, hlt⟩ := h
  rintro ⟨q', hq', p', hp', hgt⟩
  obtain rfl := Option.mem_unique hp hp'
  obtain rfl := Option.mem_unique hq hq'
  exact String.lt_asymm hlt hgt

section Order

variable {α : Type} [DecidableEq α] {resolved : List (RoutePath × α)}

/-- The first path with a value stands where the value first appears. -/
theorem head?_pathsWith (value : α) : (pathsWith resolved value).head? =
    (resolved.map (·.1))[(resolved.map (·.2)).idxOf value]? := by
  unfold pathsWith List.idxOf
  rw [List.head?_map, List.head?_filter, List.find?_eq_getElem?_findIdx, List.findIdx_map,
    List.getElem?_map]
  rfl

/-- The groups of a division stand in the order of their first paths. -/
theorem Divides.ordered (h : Ascending (resolved.map (·.1))) {groups : List (PathGroup α)}
    (hdiv : Divides resolved groups) : groups.Pairwise PathGroup.Before := by
  rw [(divides_iff h).mp hdiv, groupsOf_eq, List.pairwise_map]
  -- values that first appear in this order have first paths in this order
  refine (ordered_eraseDups (resolved.map (·.2))).imp_of_mem ?_
  intro value other _ hother hlt
  have hj : (resolved.map (·.2)).idxOf other < (resolved.map (·.1)).length := by
    simpa using List.idxOf_lt_length_iff.mpr (List.mem_eraseDups.mp hother)
  have hi := Nat.lt_trans hlt hj
  refine ⟨_, ?_, _, ?_, List.pairwise_iff_getElem.mp h _ _ hi hj hlt⟩
  · rw [toList_groupWithValue h, head?_pathsWith]
    exact List.getElem?_eq_getElem hi
  · rw [toList_groupWithValue h, head?_pathsWith]
    exact List.getElem?_eq_getElem hj

end Order

/-! ## Merging -/

/-- Groups that come of merging others: the groups whose values have one image become one. -/
structure Merges {α β : Type} (f : α → β) (groups : List (PathGroup α))
    (merged : List (PathGroup β)) : Prop where
  distinct : (merged.map (·.config)).Nodup
  images : ∀ image, image ∈ merged.map (·.config) ↔ ∃ group ∈ groups, f group.config = image
  /-- A merged group has the paths of all groups whose values have its image. -/
  united : ∀ whole ∈ merged, ∀ p, p ∈ whole.paths.toList ↔
    ∃ group ∈ groups, f group.config = whole.config ∧ p ∈ group.paths.toList
  ordered : merged.Pairwise PathGroup.Before

section Merging

variable {α β : Type} {f : α → β} {groups : List (PathGroup α)} {merged other : List (PathGroup β)}

theorem Merges.subset (h : Merges f groups merged) (h' : Merges f groups other) :
    merged ⊆ other := by
  intro whole hwhole
  have himage := (h.images _).mp (List.mem_map_of_mem hwhole)
  obtain ⟨whole', hwhole', hconfig⟩ := List.mem_map.mp ((h'.images _).mpr himage)
  have hpaths : whole.paths = whole'.paths := by
    apply PathSet.eq_of_mem_iff
    intro p
    rw [h.united whole hwhole, h'.united whole' hwhole', hconfig]
  have hsame : whole = whole' := by
    cases whole
    cases whole'
    cases hconfig
    cases hpaths
    rfl
  exact hsame ▸ hwhole'

/-- There is one way to merge groups. -/
theorem Merges.unique (h : Merges f groups merged) (h' : Merges f groups other) :
    merged = other := by
  have hperm : merged.Perm other := by
    rw [List.perm_ext_iff_of_nodup h.distinct.of_map h'.distinct.of_map]
    exact fun _ => ⟨fun hm => h.subset h' hm, fun hm => h'.subset h hm⟩
  exact hperm.eq_of_pairwise (fun _ _ _ _ hlt hgt => absurd hgt hlt.asymm) h.ordered h'.ordered

variable [DecidableEq α] {s : PathSet} {value : RoutePath → α}

/-- Paths that are divided by images are divided by values first and merged behind that. -/
theorem merges_of_divides [DecidableEq β] (h : Divides (s.valued value) groups)
    (h' : Divides (s.valued fun p => f (value p)) merged) : Merges f groups merged where
  distinct := h'.distinct
  images := by
    intro image
    rw [h'.configs, mem_distinctValues]
    simp only [PathSet.mem_valued]
    constructor
    · rintro ⟨p, hp, rfl⟩
      obtain ⟨group, hgroup, hin⟩ := h.exists_group_iff.mpr hp
      exact ⟨group, hgroup, congrArg f ((h.mem_iff hgroup).mp hin).2.symm⟩
    · rintro ⟨group, hgroup, rfl⟩
      obtain ⟨p, hp⟩ := List.exists_mem_of_ne_nil _ (h.nonempty group hgroup)
      have hvalue := (h.mem_iff hgroup).mp hp
      exact ⟨p, hvalue.1, congrArg f hvalue.2⟩
  united := by
    intro whole hwhole p
    rw [h'.mem_iff hwhole]
    constructor
    · rintro ⟨hp, himage⟩
      obtain ⟨group, hgroup, hin⟩ := h.exists_group_iff.mpr hp
      refine ⟨group, hgroup, ?_, hin⟩
      rw [← ((h.mem_iff hgroup).mp hin).2, himage]
    · rintro ⟨group, hgroup, himage, hin⟩
      have hvalue := (h.mem_iff hgroup).mp hin
      exact ⟨hvalue.1, hvalue.2 ▸ himage⟩
  ordered := h'.ordered (s.ascending_valued _)

/-- A function that keeps values apart merges no groups. -/
theorem merges_map (hapart : Function.Injective f) (h : Divides (s.valued value) groups) :
    Merges f groups (groups.map (·.map f)) where
  distinct := by
    have hconfigs : (groups.map (·.map f)).map (·.config) = (groups.map (·.config)).map f := by
      rw [List.map_map, List.map_map]
      rfl
    rw [hconfigs]
    exact h.distinct.map hapart
  images := by
    intro image
    simp [PathGroup.map]
  united := by
    intro whole hwhole p
    obtain ⟨group, hgroup, rfl⟩ := List.mem_map.mp hwhole
    constructor
    · intro hin
      exact ⟨group, hgroup, rfl, hin⟩
    · rintro ⟨group', hgroup', himage, hin⟩
      have hvalue := (h.mem_iff hgroup').mp hin
      exact (h.mem_iff hgroup).mpr ⟨hvalue.1, hvalue.2.trans (hapart himage)⟩
  ordered := List.pairwise_map.mpr (h.ordered (s.ascending_valued _))

end Merging

/-! ## Groups by annotations -/

namespace Annotations

variable (a : Annotations) (paths : PathSet)

theorem divides_groupAll (keys : List String) :
    Divides (paths.valued fun p => (a.resolveAll keys p).value) (a.groupAll paths keys).value :=
  divides_value_groupBy paths (a.resolveAll keys)

theorem divides_groupWith {α : Type} [DecidableEq α] (keys : List String)
    (convert : Table String → α) :
    Divides (paths.valued fun p => convert (a.resolveAll keys p).value)
      (a.groupWith paths keys convert).value :=
  divides_value_groupBy paths fun p => do return convert (← a.resolveAll keys p)

theorem events_groupAll (keys : List String) : (a.groupAll paths keys).events =
    paths.toList.flatMap fun p => keys.flatMap fun key => (a.resolve key p).events := by
  unfold groupAll
  rw [events_groupBy]
  simp only [events_resolveAll]

end Annotations

/-- The table that holds one value. -/
def Table.single {α : Type} (key : String) (value : α) : Table α := .ofList [(key, value)]

@[simp]
theorem Table.find?_single {α : Type} (key : String) (value : α) :
    (single key value).find? key = some value := by
  simp [single, ofList]

theorem Table.single_injective {α : Type} (key : String) :
    Function.Injective (single key : α → Table α) := by
  intro value other hsame
  have hfound := congrArg (·.find? key) hsame
  simpa using hfound

/-- Grouping by what a function makes of the values of annotations merges the groups of the values
that have one image. Grouping by one annotation is grouping by its tables with their values in their
places. Both tell what grouping by the tables tells. -/
theorem grouping_by_images_merges_groups (a : Annotations) (paths : PathSet) :
    (∀ {α : Type} [DecidableEq α] (keys : List String) (convert : Table String → α),
      (∀ merged, Merges convert (a.groupAll paths keys).value merged ↔
        merged = (a.groupWith paths keys convert).value) ∧
      (a.groupWith paths keys convert).events = (a.groupAll paths keys).events) ∧
    ∀ key, (a.group paths key).value.map (·.map some) =
        (a.groupAll paths [key]).value.map (·.map (·.find? key)) ∧
      (a.group paths key).events = (a.groupAll paths [key]).events := by
  constructor
  · intro α _ keys convert
    have hmerges : Merges convert (a.groupAll paths keys).value
        (a.groupWith paths keys convert).value :=
      merges_of_divides (a.divides_groupAll paths keys) (a.divides_groupWith paths keys convert)
    refine ⟨fun merged => ⟨fun h => h.unique hmerges, fun h => h ▸ hmerges⟩, ?_⟩
    rw [a.events_groupWith, a.events_groupAll]
  · intro key
    -- a value and the table that holds it alone tell the same paths apart
    have hgroups : (a.groupAll paths [key]).value =
        (a.group paths key).value.map (·.map (Table.single key)) := by
      have hall := a.divides_groupAll paths [key]
      simp only [a.value_resolveAll] at hall
      exact (merges_of_divides (a.divides_group key paths) hall).unique
        (merges_map (Table.single_injective key) (a.divides_group key paths))
    constructor
    · rw [hgroups, List.map_map]
      refine List.map_congr_left fun group _ => ?_
      simp [PathGroup.map]
    · rw [a.events_group, a.events_groupAll]
      simp

end Ingress
