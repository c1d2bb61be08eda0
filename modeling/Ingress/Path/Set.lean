-- The paths routed to a backend, kept in the order of their hostpaths and free of repetition. The
-- place of a hostpath is found by bisection, which agrees with a search from the start.
import Ingress.Table

namespace Ingress

/-- A path routed to a backend. Annotations are declared at its hostpath, the host followed by the
path. -/
structure RoutePath where
  id : String
  hostpath : String
  path : String
deriving DecidableEq

/-! ## Bisection -/

/-- The place of a hostpath among the ascending items from `low` to `high`. -/
def bisect (items : Array RoutePath) (hostpath : String) (low high : Nat)
    (high_le : high ≤ items.size) : Nat :=
  if _ : low < high then
    let middle := low + (high - low) / 2
    if items[middle].hostpath < hostpath then bisect items hostpath (middle + 1) high high_le
    else bisect items hostpath low middle (by omega)
  else low
termination_by high - low

/-- The number of items below a hostpath, which is the place where the hostpath belongs. -/
def rank (items : Array RoutePath) (hostpath : String) : Nat :=
  bisect items hostpath 0 items.size (Nat.le_refl _)

/-- Items whose hostpaths ascend. -/
abbrev Ascending (items : List RoutePath) : Prop := items.Pairwise (·.hostpath < ·.hostpath)

theorem hostpath_lt {items : Array RoutePath} (h : Ascending items.toList) {i j : Nat}
    (hij : i < j) (hi : i < items.size) (hj : j < items.size) :
    items[i].hostpath < items[j].hostpath := by
  have := List.pairwise_iff_getElem.mp h i j (by simpa using hi) (by simpa using hj) hij
  rwa [Array.getElem_toList, Array.getElem_toList] at this

theorem bisect_place {items : Array RoutePath} {hostpath : String} (h : Ascending items.toList)
    {low high : Nat} (high_le : high ≤ items.size) (low_le : low ≤ high)
    (below : ∀ i (hi : i < items.size), i < low → items[i].hostpath < hostpath)
    (above : ∀ i (hi : i < items.size), high ≤ i → ¬items[i].hostpath < hostpath) :
    bisect items hostpath low high high_le ≤ items.size ∧
      ∀ i (hi : i < items.size),
        items[i].hostpath < hostpath ↔ i < bisect items hostpath low high high_le := by
  fun_induction bisect items hostpath low high high_le with
  | case1 low high high_le lt middle hlt ih =>
    refine ih (by omega) ?_ above
    intro i hi him
    by_cases hm : i = middle
    · subst hm; exact hlt
    · exact String.lt_trans (hostpath_lt h (by omega : i < middle) hi (by omega)) hlt
  | case2 low high high_le lt middle hlt ih =>
    refine ih (by omega) below ?_
    intro i hi hmi hlt'
    by_cases hm : i = middle
    · subst hm; exact hlt hlt'
    · exact hlt (String.lt_trans (hostpath_lt h (by omega : middle < i) (by omega) hi) hlt')
  | case3 low high high_le lt =>
    refine ⟨by omega, fun i hi => ⟨fun hlt => ?_, fun hil => below i hi hil⟩⟩
    exact Decidable.byContradiction fun hn => above i hi (by omega) hlt

theorem rank_place {items : Array RoutePath} (h : Ascending items.toList) (hostpath : String) :
    rank items hostpath ≤ items.size ∧
      ∀ i (hi : i < items.size), items[i].hostpath < hostpath ↔ i < rank items hostpath :=
  bisect_place h (Nat.le_refl _) (Nat.zero_le _) (fun i _ hi => absurd hi (Nat.not_lt_zero i))
    (fun _ hi hle => absurd hi (Nat.not_lt.mpr hle))

/-! ## Sets of paths -/

/-- Paths without repetition of a hostpath, ascending by hostpath. -/
structure PathSet where
  items : Array RoutePath
  ascending : Ascending items.toList

namespace PathSet

instance : DecidableEq PathSet := fun s t =>
  decidable_of_iff (s.items = t.items) (by cases s; cases t; simp)

/-- The set without paths. -/
def empty : PathSet := ⟨#[], .nil⟩

/-- The paths, ascending by hostpath. -/
def toList (s : PathSet) : List RoutePath := s.items.toList

/-- The number of paths. -/
def size (s : PathSet) : Nat := s.items.size

/-- The hostpaths, ascending. -/
def hostpaths (s : PathSet) : List String := s.toList.map (·.hostpath)

/-- The path at a hostpath. -/
def find? (s : PathSet) (hostpath : String) : Option RoutePath :=
  s.items[rank s.items hostpath]?.filter (·.hostpath = hostpath)

theorem find?_eq_some_iff {s : PathSet} {hostpath : String} {p : RoutePath} :
    s.find? hostpath = some p ↔ p ∈ s.toList ∧ p.hostpath = hostpath := by
  obtain ⟨-, place⟩ := rank_place s.ascending hostpath
  simp only [find?, Option.filter_eq_some_iff, decide_eq_true_eq, toList, Array.mem_toList_iff]
  constructor
  · rintro ⟨hp, he⟩
    exact ⟨Array.mem_of_getElem? hp, he⟩
  · rintro ⟨hp, he⟩
    obtain ⟨i, hi, rfl⟩ := Array.mem_iff_getElem.mp hp
    refine ⟨?_, he⟩
    have hr : rank s.items hostpath = i := by
      rcases Nat.lt_trichotomy i (rank s.items hostpath) with hlt | heq | hgt
      · exact absurd ((place i hi).mpr hlt) (he ▸ String.lt_irrefl _)
      · exact heq.symm
      · have hlt := hostpath_lt s.ascending hgt (by omega) hi
        rw [he] at hlt
        exact absurd ((place _ (by omega)).mp hlt) (Nat.lt_irrefl _)
    rw [hr]
    exact Array.getElem?_eq_getElem hi

theorem find?_eq_none_iff {s : PathSet} {hostpath : String} :
    s.find? hostpath = none ↔ hostpath ∉ s.hostpaths := by
  rw [Option.eq_none_iff_forall_ne_some]
  simp only [ne_eq, find?_eq_some_iff, not_and, hostpaths, List.mem_map, not_exists]

/-- Items with one more at its place. -/
def insertAt (items : List RoutePath) (place : Nat) (p : RoutePath) : List RoutePath :=
  items.take place ++ p :: items.drop place

theorem lt_of_mem_take_rank {s : PathSet} {hostpath : String} {q : RoutePath}
    (hq : q ∈ s.toList.take (rank s.items hostpath)) : q.hostpath < hostpath := by
  obtain ⟨i, hi, rfl⟩ := List.mem_take_iff_getElem.mp hq
  obtain ⟨hrank, hlength⟩ := Nat.lt_min.mp hi
  exact ((rank_place s.ascending hostpath).2 i hlength).mpr hrank

theorem not_lt_of_mem_drop_rank {s : PathSet} {hostpath : String} {q : RoutePath}
    (hq : q ∈ s.toList.drop (rank s.items hostpath)) : ¬q.hostpath < hostpath := by
  obtain ⟨i, hi, rfl⟩ := List.mem_drop_iff_getElem.mp hq
  intro hlt
  have hbelow := ((rank_place s.ascending hostpath).2 _ (Nat.add_comm i _ ▸ hi)).mp hlt
  exact Nat.not_lt.mpr (Nat.le_add_right _ i) hbelow

theorem insertAt_ascending {s : PathSet} {p : RoutePath} (h : s.find? p.hostpath = none) :
    Ascending (insertAt s.toList (rank s.items p.hostpath) p) := by
  have hasc : Ascending s.toList := s.ascending
  have behind : ∀ q ∈ s.toList.drop (rank s.items p.hostpath), p.hostpath < q.hostpath := by
    intro q hq
    refine Decidable.byContradiction fun hn => find?_eq_none_iff.mp h ?_
    rw [eq_of_not_lt hn (not_lt_of_mem_drop_rank hq)]
    exact List.mem_map_of_mem (List.mem_of_mem_drop hq)
  unfold insertAt
  refine List.pairwise_append.mpr ⟨hasc.sublist (List.take_sublist _ _), ?_, ?_⟩
  · exact List.pairwise_cons.mpr ⟨behind, hasc.sublist (List.drop_sublist _ _)⟩
  · intro a ha b hb
    rcases List.mem_cons.mp hb with rfl | hb
    · exact lt_of_mem_take_rank ha
    · exact String.lt_trans (lt_of_mem_take_rank ha) (behind b hb)

/-- The set with one more path, unless there is one at its hostpath already. -/
def add (s : PathSet) (p : RoutePath) : PathSet :=
  match h : s.find? p.hostpath with
  | some _ => s
  | none => ⟨(insertAt s.toList (rank s.items p.hostpath) p).toArray, insertAt_ascending h⟩

/-- The set of the paths of a list. Of two paths with one hostpath the first one counts. -/
def ofList (paths : List RoutePath) : PathSet := paths.foldl add empty

theorem add_of_find?_eq_some {s : PathSet} {p q : RoutePath} (h : s.find? p.hostpath = some q) :
    s.add p = s := by
  unfold add
  split
  · rfl
  · next h' => rw [h] at h'; cases h'

theorem toList_add_of_find?_eq_none {s : PathSet} {p : RoutePath} (h : s.find? p.hostpath = none) :
    (s.add p).toList = insertAt s.toList (rank s.items p.hostpath) p := by
  unfold add
  split
  · next h' => rw [h] at h'; cases h'
  · rfl

/-- A new path comes between the others and replaces none of them. -/
theorem perm_toList_add {s : PathSet} {p : RoutePath} (h : s.find? p.hostpath = none) :
    (s.add p).toList.Perm (p :: s.toList) := by
  have hmiddle : (insertAt s.toList (rank s.items p.hostpath) p).Perm
      (p :: (s.toList.take (rank s.items p.hostpath) ++ s.toList.drop (rank s.items p.hostpath))) :=
    List.perm_middle
  rwa [List.take_append_drop, ← toList_add_of_find?_eq_none h] at hmiddle

theorem mem_toList_add {s : PathSet} {p q : RoutePath} : q ∈ (s.add p).toList ↔
    q ∈ s.toList ∨ q = p ∧ s.find? p.hostpath = none := by
  cases h : s.find? p.hostpath with
  | some r => simp [add_of_find?_eq_some h]
  | none =>
    rw [(perm_toList_add h).mem_iff, List.mem_cons]
    simp only [and_true]
    exact or_comm

/-- Of two paths with one hostpath, the first one is found. -/
theorem find?_add (s : PathSet) (p : RoutePath) (hostpath : String) :
    (s.add p).find? hostpath =
      if hostpath = p.hostpath then (s.find? hostpath).or (some p) else s.find? hostpath := by
  apply Option.ext
  intro q
  rw [find?_eq_some_iff, mem_toList_add]
  split
  · next h =>
    subst h
    cases hs : s.find? p.hostpath with
    | none =>
      have hne := find?_eq_none_iff.mp hs
      simp only [hostpaths, List.mem_map, not_exists, not_and] at hne
      simp only [and_true, Option.none_or, Option.some.injEq]
      grind
    | some r =>
      rw [Option.some_or, ← hs, find?_eq_some_iff, hs]
      simp
  · next h =>
    rw [find?_eq_some_iff]
    grind

end PathSet

end Ingress
