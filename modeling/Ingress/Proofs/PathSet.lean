-- Sets of paths by the additions that fill them. Main statement: the hostpaths ascend and each
-- stands once, bisection finds the path that was added first at a hostpath, as a search from the
-- start does, and the order of the additions does not show in the hostpaths.
import Ingress.Path.Set
import Ingress.Proofs.Keyed
import Ingress.Proofs.Writes
import Mathlib.Data.Finset.Card
import Mathlib.Data.List.Sort
import Mathlib.Data.String.Basic

namespace Ingress

theorem Ascending.nodup {paths : List RoutePath} (h : Ascending paths) : paths.Nodup := by
  refine List.Pairwise.imp ?_ h
  rintro p _ hlt rfl
  exact String.lt_irrefl _ hlt

namespace PathSet

/-! ## Sets and their paths -/

section Sets

variable {s t : PathSet} {hostpath : String}

theorem toList_inj : s.toList = t.toList ↔ s = t := by
  refine ⟨fun h => ?_, fun h => h ▸ rfl⟩
  cases s
  cases t
  simpa [toList] using h

theorem eq_of_mem_iff (h : ∀ p, p ∈ s.toList ↔ p ∈ t.toList) : s = t := by
  have hperm : s.toList.Perm t.toList :=
    (List.perm_ext_iff_of_nodup (Ascending.nodup s.ascending) (Ascending.nodup t.ascending)).mpr h
  rw [← toList_inj]
  exact hperm.eq_of_pairwise (fun _ _ _ _ hlt hgt => absurd hgt (String.lt_asymm hlt)) s.ascending
    t.ascending

variable (s) in
theorem ascending_hostpaths : s.hostpaths.Pairwise (· < ·) := List.pairwise_map.mpr s.ascending

variable (s) in
theorem nodup_hostpaths : s.hostpaths.Nodup := s.ascending_hostpaths.imp String.ne_of_lt

theorem mem_hostpaths_iff : hostpath ∈ s.hostpaths ↔ (s.find? hostpath).isSome := by
  rw [← Option.ne_none_iff_isSome, ne_eq, find?_eq_none_iff, not_not]

/-- Bisection finds what a search from the start finds. -/
theorem find?_eq_find?_toList : s.find? hostpath = s.toList.find? (·.hostpath = hostpath) := by
  apply Option.ext
  intro p
  rw [find?_eq_some_iff]
  exact (find?_key_eq_some_iff s.nodup_hostpaths).symm

end Sets

/-! ## Added paths -/

theorem firstWins_add :
    FirstWins find? add fun p hostpath => Option.guard (·.hostpath = hostpath) p := by
  intro s p hostpath
  rw [find?_add]
  by_cases h : hostpath = p.hostpath
  · simp [h, Option.guard]
  · simp [h, Ne.symm h, Option.guard]

theorem find?_foldl_add (s : PathSet) (paths : List RoutePath) (hostpath : String) :
    (paths.foldl add s).find? hostpath =
      (s.find? hostpath).or (paths.find? (·.hostpath = hostpath)) := by
  rw [get_foldl_of_firstWins firstWins_add, List.findSome?_guard]

theorem find?_ofList (paths : List RoutePath) (hostpath : String) :
    (ofList paths).find? hostpath = paths.find? (·.hostpath = hostpath) :=
  find?_foldl_add empty paths hostpath

theorem mem_hostpaths_ofList {paths : List RoutePath} {hostpath : String} :
    hostpath ∈ (ofList paths).hostpaths ↔ hostpath ∈ paths.map (·.hostpath) := by
  rw [mem_hostpaths_iff, find?_ofList, List.find?_isSome, List.mem_map]
  simp only [decide_eq_true_eq]

theorem size_ofList (paths : List RoutePath) :
    (ofList paths).size = (paths.map (·.hostpath)).toFinset.card := by
  have hmem : (paths.map (·.hostpath)).toFinset = (ofList paths).hostpaths.toFinset := by
    ext hostpath
    rw [List.mem_toFinset, List.mem_toFinset, mem_hostpaths_ofList]
  rw [hmem, List.toFinset_card_of_nodup (nodup_hostpaths _), hostpaths, List.length_map]
  rfl

/-- The hostpaths that were added decide which hostpaths a set has. -/
theorem hostpaths_ofList_congr {paths other : List RoutePath}
    (h : ∀ hostpath, hostpath ∈ paths.map (·.hostpath) ↔ hostpath ∈ other.map (·.hostpath)) :
    (ofList paths).hostpaths = (ofList other).hostpaths := by
  refine (ascending_hostpaths _).eq_of_mem_iff (ascending_hostpaths _) fun hostpath => ?_
  rw [mem_hostpaths_ofList, mem_hostpaths_ofList, h]

/-- A path above all others comes last. -/
theorem toList_add_of_above {s : PathSet} {p : RoutePath}
    (h : ∀ q ∈ s.toList, q.hostpath < p.hostpath) : (s.add p).toList = s.toList ++ [p] := by
  have hfind : s.find? p.hostpath = none := by
    rw [find?_eq_none_iff, hostpaths, List.mem_map]
    rintro ⟨q, hq, he⟩
    exact String.lt_irrefl _ (he ▸ h q hq)
  have hrank : rank s.items p.hostpath = s.toList.length := by
    obtain ⟨hle, place⟩ := rank_place s.ascending p.hostpath
    refine Nat.le_antisymm hle (Nat.le_of_not_lt fun hlt => ?_)
    exact Nat.lt_irrefl _ ((place _ hlt).mp (h _ (Array.getElem_mem_toList _)))
  rw [toList_add_of_find?_eq_none hfind, insertAt, hrank, List.take_length, List.drop_length]

theorem toList_ofList {paths : List RoutePath} (h : Ascending paths) :
    (ofList paths).toList = paths := by
  induction paths using List.reverseRecOn with
  | nil => rfl
  | append_singleton paths p ih =>
    obtain ⟨hasc, -, hlast⟩ := List.pairwise_append.mp h
    unfold ofList at ih ⊢
    rw [List.foldl_concat, toList_add_of_above, ih hasc]
    intro q hq
    exact hlast q (ih hasc ▸ hq) p (List.mem_singleton_self p)

/-- A set that is made of paths and gets more of them has ascending hostpaths, as many as there are
different ones among the paths. It finds the path that came first at a hostpath, if one came there,
and a search from the start finds the same. Paths in another order give the same hostpaths. -/
theorem paths_are_found_as_they_were_first_added (paths more : List RoutePath) :
    let added := paths ++ more
    let s := more.foldl add (ofList paths)
    s.hostpaths.Pairwise (· < ·) ∧
    (∀ hostpath, s.find? hostpath = added.find? (·.hostpath = hostpath) ∧
      s.find? hostpath = s.toList.find? (·.hostpath = hostpath) ∧
      (s.find? hostpath = none ↔ hostpath ∉ added.map (·.hostpath))) ∧
    s.size = (added.map (·.hostpath)).toFinset.card ∧
    ∀ other, other.Perm added → (ofList other).hostpaths = s.hostpaths := by
  intro added s
  have hs : s = ofList added := List.foldl_append.symm
  rw [hs]
  refine ⟨ascending_hostpaths _, fun hostpath => ⟨find?_ofList added hostpath,
    find?_eq_find?_toList, ?_⟩, size_ofList added, fun other hperm => ?_⟩
  · rw [find?_eq_none_iff, mem_hostpaths_ofList]
  · exact hostpaths_ofList_congr fun hostpath => (hperm.map _).mem_iff

end PathSet

end Ingress
