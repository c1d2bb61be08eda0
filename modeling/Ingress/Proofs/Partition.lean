-- The groups of paths by the values that are resolved on them. Main statement: each path is
-- resolved once, in the order of the paths, and the groups divide the paths by their values, with
-- one group for each value.
import Mathlib.Data.List.Perm.Subperm
import Ingress.Logged
import Ingress.Path.Group
import Ingress.Proofs.FirstAppearance
import Ingress.Proofs.PathSet

namespace Ingress

/-! ## Resolved paths -/

namespace PathSet

section Valued

variable {α : Type} (s : PathSet) (f : RoutePath → α)

/-- The paths with their values. -/
def valued : List (RoutePath × α) := s.toList.map fun p => (p, f p)

variable {s f}

theorem mem_valued {p : RoutePath} {value : α} :
    (p, value) ∈ s.valued f ↔ p ∈ s.toList ∧ f p = value := by
  unfold valued
  rw [List.mem_map]
  constructor
  · rintro ⟨q, hq, he⟩
    cases he
    exact ⟨hq, rfl⟩
  · rintro ⟨hp, rfl⟩
    exact ⟨p, hp, rfl⟩

variable (s f)

theorem map_fst_valued : (s.valued f).map (·.1) = s.toList := by
  unfold valued
  rw [List.map_map]
  exact List.map_id' _

theorem map_snd_valued : (s.valued f).map (·.2) = s.toList.map f := by
  unfold valued
  rw [List.map_map]
  rfl

theorem ascending_valued : Ascending ((s.valued f).map (·.1)) := by
  rw [map_fst_valued]
  exact s.ascending

end Valued

end PathSet

section Resolved

variable {α : Type} {resolved : List (RoutePath × α)}

/-- Ascending paths have one value each. -/
theorem value_unique (h : Ascending (resolved.map (·.1))) {p q : RoutePath} {value other : α}
    (hp : (p, value) ∈ resolved) (hq : (q, other) ∈ resolved) (he : p.hostpath = q.hostpath) :
    value = other := by
  have hnodup : (resolved.map (·.1.hostpath)).Nodup :=
    List.pairwise_map.mpr ((List.pairwise_map.mp h).imp String.ne_of_lt)
  have hsame := List.inj_on_of_nodup_map hnodup hp hq he
  exact (Prod.mk.inj hsame).2

/-- The value of the first path that is in a part. -/
def valueIn? (resolved : List (RoutePath × α)) (part : PathSet) : Option α :=
  (resolved.find? (·.1 ∈ part.toList)).map (·.2)

/-- If all paths of a part have one value, it is the value of the part. -/
theorem valueIn?_eq_some {part : PathSet} {p : RoutePath} {value : α}
    (hp : (p, value) ∈ resolved) (hin : p ∈ part.toList)
    (hsame : ∀ q other, (q, other) ∈ resolved → q ∈ part.toList → other = value) :
    valueIn? resolved part = some value := by
  have hsome : (resolved.find? (·.1 ∈ part.toList)).isSome := by
    rw [List.find?_isSome]
    exact ⟨(p, value), hp, decide_eq_true hin⟩
  obtain ⟨⟨q, other⟩, hq⟩ := Option.isSome_iff_exists.mp hsome
  have hqin : q ∈ part.toList := by simpa using List.find?_some hq
  rw [valueIn?, hq, Option.map_some, hsame q other (List.mem_of_find?_eq_some hq) hqin]

end Resolved

section Groups

variable {α : Type} [DecidableEq α]

/-! ## The groups in closed form -/

/-- The paths that have a value, in their order. -/
def pathsWith (resolved : List (RoutePath × α)) (value : α) : List RoutePath :=
  (resolved.filter (·.2 = value)).map (·.1)

/-- The values of paths, each at its first appearance. -/
def distinctValues (resolved : List (RoutePath × α)) : List α := (resolved.map (·.2)).eraseDups

/-- The group of the paths that have a value. -/
def groupWithValue (resolved : List (RoutePath × α)) (value : α) : PathGroup α :=
  ⟨PathSet.ofList (pathsWith resolved value), value⟩

theorem mem_pathsWith {resolved : List (RoutePath × α)} {value : α} {p : RoutePath} :
    p ∈ pathsWith resolved value ↔ (p, value) ∈ resolved := by
  simp [pathsWith]

theorem mem_distinctValues {resolved : List (RoutePath × α)} {value : α} :
    value ∈ distinctValues resolved ↔ ∃ p, (p, value) ∈ resolved := by
  simp [distinctValues, List.mem_eraseDups]

theorem pathsWith_concat (resolved : List (RoutePath × α)) (p : RoutePath) (value other : α) :
    pathsWith (resolved ++ [(p, value)]) other =
      if value = other then pathsWith resolved other ++ [p] else pathsWith resolved other := by
  unfold pathsWith
  rw [List.filter_append, List.map_append]
  by_cases h : value = other <;> simp [h]

/-- A path with a value joins the group of this value and no other. -/
theorem groupWithValue_concat (resolved : List (RoutePath × α)) (p : RoutePath)
    (value other : α) : groupWithValue (resolved ++ [(p, value)]) other =
      let group := groupWithValue resolved other
      if group.config = value then { group with paths := group.paths.add p } else group := by
  simp only [groupWithValue, pathsWith_concat, PathSet.ofList, eq_comm (a := other)]
  split
  · rw [List.foldl_concat]
  · rfl

theorem addToGroups_of_not_mem {groups : List (PathGroup α)} {value : α} (p : RoutePath)
    (h : value ∉ groups.map (·.config)) :
    addToGroups p value groups = groups ++ [⟨PathSet.empty.add p, value⟩] := by
  induction groups with
  | nil => rfl
  | cons group groups ih =>
    rw [List.map_cons, List.mem_cons, not_or] at h
    rw [addToGroups, if_neg (Ne.symm h.1), ih h.2, List.cons_append]

theorem addToGroups_of_mem {groups : List (PathGroup α)} {value : α} (p : RoutePath)
    (hmem : value ∈ groups.map (·.config)) (hnodup : (groups.map (·.config)).Nodup) :
    addToGroups p value groups = groups.map fun group =>
      if group.config = value then { group with paths := group.paths.add p } else group := by
  induction groups with
  | nil => cases hmem
  | cons group groups ih =>
    obtain ⟨hnew, hnodup⟩ := List.nodup_cons.mp hnodup
    rw [addToGroups, List.map_cons]
    by_cases hvalue : group.config = value
    · rw [if_pos hvalue, if_pos hvalue]
      congr 1
      -- the value is taken, so no group behind this one has it
      refine (List.map_id' groups).symm.trans (List.map_congr_left fun other hother => ?_)
      refine (if_neg fun he => hnew ?_).symm
      exact List.mem_map.mpr ⟨other, hother, he.trans hvalue.symm⟩
    · rw [if_neg hvalue, if_neg hvalue, ih ?_ hnodup]
      rcases List.mem_cons.mp hmem with he | hrest
      · exact absurd he.symm hvalue
      · exact hrest

theorem config_groupWithValue (resolved : List (RoutePath × α)) (values : List α) :
    (values.map (groupWithValue resolved)).map (·.config) = values := by
  rw [List.map_map]
  exact List.map_id' values

theorem groupsOf_eq (resolved : List (RoutePath × α)) :
    groupsOf resolved = (distinctValues resolved).map (groupWithValue resolved) := by
  induction resolved using List.reverseRecOn with
  | nil => rfl
  | append_singleton resolved r ih =>
    obtain ⟨p, value⟩ := r
    have hconfigs := config_groupWithValue resolved (distinctValues resolved)
    have hrun : groupsOf (resolved ++ [(p, value)]) = addToGroups p value (groupsOf resolved) :=
      List.foldl_concat ..
    have hvalues : distinctValues (resolved ++ [(p, value)]) =
        if value ∈ distinctValues resolved then distinctValues resolved
        else distinctValues resolved ++ [value] := by
      unfold distinctValues
      rw [List.map_append, List.map_singleton, eraseDups_concat]
      simp only [List.mem_eraseDups]
    rw [hrun, hvalues, ih]
    by_cases hmem : value ∈ distinctValues resolved
    · rw [if_pos hmem, addToGroups_of_mem p (by rwa [hconfigs])
        (by rw [hconfigs]; exact nodup_eraseDups _), List.map_map]
      exact List.map_congr_left fun other _ => (groupWithValue_concat resolved p value other).symm
    · have hothers : ∀ other ∈ distinctValues resolved,
          groupWithValue (resolved ++ [(p, value)]) other = groupWithValue resolved other := by
        intro other hother
        rw [groupWithValue_concat]
        exact if_neg fun he : other = value => hmem (he ▸ hother)
      have hfresh : pathsWith resolved value = [] := by
        rw [List.eq_nil_iff_forall_not_mem]
        exact fun q hq => hmem (mem_distinctValues.mpr ⟨q, mem_pathsWith.mp hq⟩)
      rw [if_neg hmem, addToGroups_of_not_mem p (by rwa [hconfigs]), List.map_append,
        List.map_congr_left hothers, List.map_singleton, groupWithValue, pathsWith_concat,
        if_pos rfl, hfresh]
      rfl

/-! ## The division of the paths -/

/-- The groups divide resolved paths by their values. -/
structure Divides (resolved : List (RoutePath × α)) (groups : List (PathGroup α)) : Prop where
  /-- The values at their first appearances. -/
  configs : groups.map (·.config) = distinctValues resolved
  distinct : (groups.map (·.config)).Nodup
  /-- The paths of a value, in their order. -/
  paths : ∀ group ∈ groups, group.paths.toList = pathsWith resolved group.config
  nonempty : ∀ group ∈ groups, group.paths.toList ≠ []
  disjoint : groups.Pairwise fun group other => ∀ p ∈ group.paths.toList,
    ∀ q ∈ other.paths.toList, p.hostpath ≠ q.hostpath
  covers : ∀ p, p ∈ resolved.map (·.1) ↔ ∃ group ∈ groups, p ∈ group.paths.toList
  /-- Two paths share a group if their values are equal, and only then. -/
  shares : ∀ p value, (p, value) ∈ resolved → ∀ q other, (q, other) ∈ resolved →
    ((∃ group ∈ groups, p ∈ group.paths.toList ∧ q ∈ group.paths.toList) ↔ value = other)
  /-- Parts with one value each that cover the paths are at least as many. -/
  least : ∀ parts : List PathSet,
    (∀ p ∈ resolved.map (·.1), ∃ part ∈ parts, p ∈ part.toList) →
    (∀ part ∈ parts, ∀ p value, (p, value) ∈ resolved → p ∈ part.toList →
      ∀ q other, (q, other) ∈ resolved → q ∈ part.toList → value = other) →
    groups.length ≤ parts.length

variable {resolved : List (RoutePath × α)}

theorem toList_groupWithValue (h : Ascending (resolved.map (·.1))) (value : α) :
    (groupWithValue resolved value).paths.toList = pathsWith resolved value :=
  PathSet.toList_ofList (h.sublist (List.filter_sublist.map _))

theorem mem_groupsOf {group : PathGroup α} : group ∈ groupsOf resolved ↔
    ∃ value, value ∈ distinctValues resolved ∧ groupWithValue resolved value = group := by
  rw [groupsOf_eq, List.mem_map]

/-- A path is in a group if it has the value of the group. -/
theorem mem_groupWithValue (h : Ascending (resolved.map (·.1))) {p : RoutePath} {value : α} :
    p ∈ (groupWithValue resolved value).paths.toList ↔ (p, value) ∈ resolved := by
  rw [toList_groupWithValue h, mem_pathsWith]

theorem exists_group_of_mem {p : RoutePath} {value : α} (hp : (p, value) ∈ resolved) :
    groupWithValue resolved value ∈ groupsOf resolved :=
  mem_groupsOf.mpr ⟨value, mem_distinctValues.mpr ⟨p, hp⟩, rfl⟩

/-- Parts that cover the paths and have one value each are at least as many as the values. -/
theorem length_distinctValues_le {parts : List PathSet}
    (hcover : ∀ p ∈ resolved.map (·.1), ∃ part ∈ parts, p ∈ part.toList)
    (hsame : ∀ part ∈ parts, ∀ p value, (p, value) ∈ resolved → p ∈ part.toList →
      ∀ q other, (q, other) ∈ resolved → q ∈ part.toList → value = other) :
    (distinctValues resolved).length ≤ parts.length := by
  -- each value is the value of a part, and a part has no more than one
  have hsub : distinctValues resolved ⊆ parts.filterMap (valueIn? resolved) := by
    intro value hvalue
    obtain ⟨p, hp⟩ := mem_distinctValues.mp hvalue
    obtain ⟨part, hpart, hin⟩ := hcover p (List.mem_map_of_mem hp)
    refine List.mem_filterMap.mpr ⟨part, hpart, valueIn?_eq_some hp hin fun q other hq hqin => ?_⟩
    exact hsame part hpart q other hq hqin p value hp hin
  calc (distinctValues resolved).length
      ≤ (parts.filterMap (valueIn? resolved)).length :=
        ((nodup_eraseDups _).subperm hsub).length_le
    _ ≤ parts.length := List.length_filterMap_le ..

theorem divides_groupsOf (h : Ascending (resolved.map (·.1))) :
    Divides resolved (groupsOf resolved) := by
  have hconfigs : (groupsOf resolved).map (·.config) = distinctValues resolved := by
    rw [groupsOf_eq, config_groupWithValue]
  exact {
    configs := hconfigs
    distinct := hconfigs ▸ nodup_eraseDups _
    paths := by
      intro group hgroup
      obtain ⟨value, -, rfl⟩ := mem_groupsOf.mp hgroup
      exact toList_groupWithValue h value
    nonempty := by
      intro group hgroup
      obtain ⟨value, hvalue, rfl⟩ := mem_groupsOf.mp hgroup
      obtain ⟨p, hp⟩ := mem_distinctValues.mp hvalue
      exact List.ne_nil_of_mem ((mem_groupWithValue h).mpr hp)
    disjoint := by
      rw [groupsOf_eq, List.pairwise_map]
      refine (nodup_eraseDups (resolved.map (·.2))).imp ?_
      intro value other hne p hp q hq he
      exact hne (value_unique h ((mem_groupWithValue h).mp hp) ((mem_groupWithValue h).mp hq) he)
    covers := by
      intro p
      constructor
      · intro hp
        obtain ⟨⟨p, value⟩, hr, rfl⟩ := List.mem_map.mp hp
        exact ⟨_, exists_group_of_mem hr, (mem_groupWithValue h).mpr hr⟩
      · rintro ⟨group, hgroup, hp⟩
        obtain ⟨value, -, rfl⟩ := mem_groupsOf.mp hgroup
        exact List.mem_map_of_mem ((mem_groupWithValue h).mp hp)
    shares := by
      intro p value hp q other hq
      constructor
      · rintro ⟨group, hgroup, hpin, hqin⟩
        obtain ⟨shared, -, rfl⟩ := mem_groupsOf.mp hgroup
        have hvalue : value = shared := value_unique h hp ((mem_groupWithValue h).mp hpin) rfl
        have hother : other = shared := value_unique h hq ((mem_groupWithValue h).mp hqin) rfl
        exact hvalue.trans hother.symm
      · rintro rfl
        exact ⟨_, exists_group_of_mem hp, (mem_groupWithValue h).mpr hp,
          (mem_groupWithValue h).mpr hq⟩
    least := by
      intro parts hcover hsame
      rw [← List.length_map, hconfigs]
      exact length_distinctValues_le hcover hsame }

/-- The groups of a division hold each path once and no others. -/
theorem Divides.perm (h : Ascending (resolved.map (·.1))) {groups : List (PathGroup α)}
    (hdiv : Divides resolved groups) :
    (groups.flatMap (·.paths.toList)).Perm (resolved.map (·.1)) := by
  have hnodup : (groups.flatMap (·.paths.toList)).Nodup := by
    rw [List.nodup_flatMap]
    refine ⟨fun group _ => Ascending.nodup group.paths.ascending, hdiv.disjoint.imp ?_⟩
    intro group other hne p hp hq
    exact hne p hp p hq rfl
  rw [List.perm_ext_iff_of_nodup hnodup (Ascending.nodup h)]
  intro p
  rw [List.mem_flatMap, hdiv.covers]

section OfSet

variable {s : PathSet} {value : RoutePath → α} {groups : List (PathGroup α)} {p : RoutePath}

/-- A path of a set is in the group of its value. -/
theorem Divides.mem_iff (hdiv : Divides (s.valued value) groups) {group : PathGroup α}
    (hgroup : group ∈ groups) :
    p ∈ group.paths.toList ↔ p ∈ s.toList ∧ value p = group.config := by
  rw [hdiv.paths group hgroup, mem_pathsWith, PathSet.mem_valued]

theorem Divides.exists_group_iff (hdiv : Divides (s.valued value) groups) :
    (∃ group ∈ groups, p ∈ group.paths.toList) ↔ p ∈ s.toList := by
  rw [← hdiv.covers, PathSet.map_fst_valued]

/-- The groups hold the paths of a set, each of them once. -/
theorem Divides.perm_toList (hdiv : Divides (s.valued value) groups) :
    (groups.flatMap fun group => group.paths.toList).Perm s.toList := by
  have hperm := Divides.perm (s.ascending_valued value) hdiv
  rwa [PathSet.map_fst_valued] at hperm

end OfSet

/-- There is one division of paths by their values. -/
theorem divides_iff (h : Ascending (resolved.map (·.1))) {groups : List (PathGroup α)} :
    Divides resolved groups ↔ groups = groupsOf resolved := by
  constructor
  · intro hdiv
    rw [groupsOf_eq, ← hdiv.configs, List.map_map]
    refine (List.map_id' groups).symm.trans (List.map_congr_left fun group hgroup => ?_)
    have hpaths : group.paths = (groupWithValue resolved group.config).paths := by
      rw [← PathSet.toList_inj, toList_groupWithValue h]
      exact hdiv.paths group hgroup
    exact congrArg (PathGroup.mk · group.config) hpaths
  · rintro rfl
    exact divides_groupsOf h

end Groups

/-! ## The resolutions -/

section Resolutions

variable {m : Type → Type} [Monad m] {α : Type}

/-- A resolution that takes note of the paths on which it is called. -/
def recorded (resolve : RoutePath → m α) (p : RoutePath) : StateT (List RoutePath) m α := do
  modify (· ++ [p])
  resolve p

variable [LawfulMonad m]

theorem mapM_pairs (resolve : RoutePath → m α) (paths : List RoutePath) :
    (paths.mapM fun p => do return (p, ← resolve p)) = paths.zip <$> paths.mapM resolve := by
  induction paths with
  | nil => simp
  | cons p paths ih =>
    rw [List.mapM_cons, List.mapM_cons, ih]
    simp

theorem run_mapM_recorded (resolve : RoutePath → m α) (paths calls : List RoutePath) :
    (paths.mapM (recorded resolve)).run calls =
      (fun values => (values, calls ++ paths)) <$> paths.mapM resolve := by
  induction paths generalizing calls with
  | nil => simp
  | cons p paths ih => simp [List.mapM_cons, recorded, ih]

theorem mapM_toVector (s : PathSet) (resolve : RoutePath → m α) :
    Vector.toList <$> s.items.toVector.mapM resolve = s.toList.mapM resolve := by
  calc Vector.toList <$> s.items.toVector.mapM resolve
      = Array.toList <$> Vector.toArray <$> s.items.toVector.mapM resolve := by
        rw [Functor.map_map]
        rfl
    _ = s.items.toList.mapM resolve := by rw [Vector.toArray_mapM, Array.toList_mapM]

variable [DecidableEq α]

theorem groupBy_eq (s : PathSet) (resolve : RoutePath → m α) : s.groupBy resolve =
    (fun values => groupsOf (s.toList.zip values)) <$> s.toList.mapM resolve := by
  unfold PathSet.groupBy
  rw [mapM_pairs]
  simp

/-- Each path is resolved once, in the order of the hostpaths, and the groups are the division of
the paths by the values. -/
theorem groups_divide_the_paths_by_their_values (s : PathSet) (resolve : RoutePath → m α) :
    Ascending s.toList ∧
    (∀ calls, (s.groupBy (recorded resolve)).run calls =
      (fun groups => (groups, calls ++ s.toList)) <$> s.groupBy resolve) ∧
    ∃ division : Vector α s.items.size → List (PathGroup α),
      s.groupBy resolve = division <$> s.items.toVector.mapM resolve ∧
      ∀ values groups, Divides (s.toList.zip values.toList) groups ↔ groups = division values := by
  refine ⟨s.ascending, fun calls => ?_, fun values => groupsOf (s.toList.zip values.toList), ?_,
    fun values groups => divides_iff ?_⟩
  · rw [groupBy_eq, groupBy_eq, StateT.run_map, run_mapM_recorded]
    simp
  · rw [groupBy_eq, ← mapM_toVector, Functor.map_map]
  · rw [List.map_fst_zip]
    · exact s.ascending
    · simp [PathSet.toList]

end Resolutions

/-- The groups of values that are found with events on the way divide the paths by these values. -/
theorem divides_value_groupBy {α : Type} [DecidableEq α] (s : PathSet)
    (resolve : RoutePath → Logged α) :
    Divides (s.valued fun p => (resolve p).value) (s.groupBy resolve).value := by
  have hvalue : (s.groupBy resolve).value = groupsOf (s.valued fun p => (resolve p).value) := by
    unfold PathSet.groupBy
    rw [Logged.value_bind, Logged.value_mapM]
    rfl
  exact (divides_iff (s.ascending_valued _)).mpr hvalue

/-- Three paths on two hosts. -/
def threePaths : PathSet where
  items := #[⟨"3", "a.test/", "/"⟩, ⟨"1", "a.test/api", "/api"⟩, ⟨"2", "b.test/", "/"⟩]
  ascending := by decide

theorem three_paths_make_two_groups :
    (threePaths.groupBy (m := Logged) fun p => pure p.path).value.map (·.config) = ["/", "/api"] ∧
    Divides (threePaths.toList.zip ["/", "/api", "/"])
      (threePaths.groupBy (m := Logged) fun p => pure p.path).value := by
  obtain ⟨-, -, division, hrun, hdivision⟩ :=
    groups_divide_the_paths_by_their_values (m := Logged) threePaths fun p => pure p.path
  have hvalues : (threePaths.items.toVector.mapM (m := Logged) fun p => pure p.path).value.toList =
      ["/", "/api", "/"] := by
    rw [← Logged.value_map Vector.toList, mapM_toVector, Logged.value_mapM]
    decide
  have hdivides := (hdivision _ _).mpr (congrArg Logged.value hrun)
  rw [hvalues] at hdivides
  exact ⟨hdivides.configs.trans (by decide), hdivides⟩

end Ingress
