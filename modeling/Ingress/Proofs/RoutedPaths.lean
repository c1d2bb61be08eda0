-- The paths that are routed to a backend. A path takes the next number when its hostpath comes for
-- the first time, and keeps it wherever other paths are put. Main statement: the paths of a backend
-- are the routes that brought a new hostpath, numbered as they came, and no two have the same id.
import Ingress.Backend
import Ingress.Proofs.Decimal
import Ingress.Proofs.PathSet

namespace Ingress

/-! ## Routes -/

/-- A path of a host that is routed to a backend. -/
structure Route where
  host : String
  path : String
deriving DecidableEq

namespace Route

/-- The hostpath of a route. -/
def hostpath (r : Route) : String := r.host ++ r.path

/-- The path that a route becomes if it is number `k` of those that bring a new hostpath. The number
stands in its id in at least two digits. -/
def numbered (k : Nat) (r : Route) : RoutePath :=
  ⟨"path" ++ String.ofList (Text.paddedDigits 2 k), r.hostpath, r.path⟩

end Route

/-- The routes that bring a new hostpath, when some hostpaths have been seen before. -/
def newRoutes (seen : List String) : List Route → List Route
  | [] => []
  | r :: routes =>
    if r.hostpath ∈ seen then newRoutes seen routes
    else r :: newRoutes (r.hostpath :: seen) routes

theorem newRoutes_concat (seen : List String) (routes : List Route) (r : Route) :
    newRoutes seen (routes ++ [r]) =
      if r.hostpath ∈ seen ∨ r.hostpath ∈ routes.map (·.hostpath) then newRoutes seen routes
      else newRoutes seen routes ++ [r] := by
  induction routes generalizing seen with
  | nil => by_cases h : r.hostpath ∈ seen <;> simp [newRoutes, h]
  | cons q routes ih =>
    rw [List.cons_append, newRoutes, newRoutes]
    by_cases hq : q.hostpath ∈ seen
    · -- the hostpath of this route is seen, so it can be left out behind the front as well
      have hseen : r.hostpath ∈ seen ∨ r.hostpath ∈ (q :: routes).map (·.hostpath) ↔
          r.hostpath ∈ seen ∨ r.hostpath ∈ routes.map (·.hostpath) := by
        rw [List.map_cons, List.mem_cons, or_left_comm, or_iff_right_of_imp]
        exact fun h => .inl (h ▸ hq)
      simp only [if_pos hq, ih, hseen]
    · have hseen : r.hostpath ∈ q.hostpath :: seen ∨ r.hostpath ∈ routes.map (·.hostpath) ↔
          r.hostpath ∈ seen ∨ r.hostpath ∈ (q :: routes).map (·.hostpath) := by
        rw [List.map_cons, List.mem_cons, List.mem_cons, or_assoc, or_left_comm]
      simp only [if_neg hq, ih, hseen]
      split <;> rfl

namespace Backend

/-! ## Ids -/

theorem pathId_eq (n : Nat) : pathId n = "path" ++ String.ofList (Text.paddedDigits 2 n) := by
  unfold pathId Text.paddedDigits List.leftpad
  rw [Nat.repr_eq_ofList_toDigits, String.append_assoc, String.append_right_inj]
  by_cases hn : n < 10
  · rw [if_pos hn, Nat.toDigits_of_lt_base hn, String.ofList_append]
    rfl
  · have hlength : ¬(Nat.toDigits 10 n).length ≤ 1 := fun hle =>
      hn ((Nat.length_toDigits_le_iff (by decide) Nat.one_pos).mp hle)
    rw [if_neg hn, String.empty_append, Nat.sub_eq_zero_of_le (by omega)]
    rfl

example : pathId 7 = "path07" ∧ pathId 100 = "path100" := by decide

theorem pathId_injective : Function.Injective pathId := by
  intro m n h
  rw [pathId_eq, pathId_eq, String.append_right_inj, String.ofList_inj] at h
  exact Text.paddedDigits_injective 2 h

theorem numbered_eq (k : Nat) (r : Route) :
    r.numbered k = ⟨pathId k, r.host ++ r.path, r.path⟩ := by
  rw [pathId_eq]
  rfl

theorem nodup_ids_numbered (routes : List Route) :
    ((routes.mapIdx fun k r => r.numbered (k + 1)).map (·.id)).Nodup := by
  refine List.pairwise_map.mpr (List.pairwise_iff_getElem.mpr fun i j hi hj hlt hsame => ?_)
  simp only [List.getElem_mapIdx, numbered_eq] at hsame
  have hnumber := pathId_injective hsame
  omega

/-! ## One route -/

section Route

variable {b : Backend} {host path hostpath : String}

theorem route_eq_self (h : host ++ path ∈ b.paths.hostpaths) : b.route host path = b :=
  if_pos (PathSet.mem_hostpaths_iff.mp h)

theorem paths_route_of_new (h : host ++ path ∉ b.paths.hostpaths) : (b.route host path).paths =
    b.paths.add ⟨pathId (b.paths.size + 1), host ++ path, path⟩ := by
  rw [PathSet.mem_hostpaths_iff] at h
  rw [route, if_neg h]

/-- A new path takes the next number, whatever its place is. -/
theorem perm_route_of_new (h : host ++ path ∉ b.paths.hostpaths) :
    (b.route host path).paths.toList.Perm
      (⟨pathId (b.paths.size + 1), host ++ path, path⟩ :: b.paths.toList) := by
  rw [paths_route_of_new h]
  exact PathSet.perm_toList_add (PathSet.find?_eq_none_iff.mpr h)

theorem mem_hostpaths_route : hostpath ∈ (b.route host path).paths.hostpaths ↔
    hostpath ∈ b.paths.hostpaths ∨ host ++ path = hostpath := by
  by_cases hold : host ++ path ∈ b.paths.hostpaths
  · rw [route_eq_self hold, or_iff_left_of_imp]
    rintro rfl
    exact hold
  · rw [PathSet.hostpaths, ((perm_route_of_new hold).map _).mem_iff, List.map_cons, List.mem_cons,
      or_comm, eq_comm]
    rfl

/-- What is found at a new hostpath is the route with the next number. -/
theorem find?_route_of_new {r : Route} (h : r.hostpath ∉ b.paths.hostpaths) :
    (b.route r.host r.path).paths.find? r.hostpath = some (r.numbered (b.paths.size + 1)) := by
  rw [paths_route_of_new h, PathSet.firstWins_add, PathSet.find?_eq_none_iff.mpr h, Option.none_or,
    ← numbered_eq]
  exact Option.guard_eq_some_iff.mpr ⟨rfl, decide_eq_true rfl⟩

/-- What is found at a hostpath stays there. -/
theorem find?_route_of_eq_some {p : RoutePath} (h : b.paths.find? hostpath = some p) :
    (b.route host path).paths.find? hostpath = some p := by
  by_cases hold : host ++ path ∈ b.paths.hostpaths
  · rwa [route_eq_self hold]
  · rw [paths_route_of_new hold, PathSet.firstWins_add, h, Option.some_or]

end Route

/-! ## All routes -/

/-- The backend with routes added, one after the other. -/
def routeAll (b : Backend) (routes : List Route) : Backend :=
  routes.foldl (fun b r => b.route r.host r.path) b

theorem routeAll_concat (b : Backend) (routes : List Route) (r : Route) :
    b.routeAll (routes ++ [r]) = (b.routeAll routes).route r.host r.path := List.foldl_concat ..

theorem mem_hostpaths_routeAll {b : Backend} {routes : List Route} {hostpath : String} :
    hostpath ∈ (b.routeAll routes).paths.hostpaths ↔
      hostpath ∈ b.paths.hostpaths ∨ hostpath ∈ routes.map (·.hostpath) := by
  induction routes using List.reverseRecOn with
  | nil => simp [routeAll]
  | append_singleton routes r ih =>
    rw [routeAll_concat, mem_hostpaths_route, ih, List.map_append, List.mem_append, or_assoc,
      List.map_singleton, List.mem_singleton, Route.hostpath, eq_comm]

theorem find?_routeAll_of_eq_some {b : Backend} {hostpath : String} {p : RoutePath}
    (h : b.paths.find? hostpath = some p) (routes : List Route) :
    (b.routeAll routes).paths.find? hostpath = some p := by
  induction routes generalizing b with
  | nil => exact h
  | cons r routes ih => exact ih (find?_route_of_eq_some h)

section Bare

variable {b : Backend} (hbare : b.paths = .empty) (routes : List Route)
include hbare

theorem mem_hostpaths_routeAll_of_bare {hostpath : String} :
    hostpath ∈ (b.routeAll routes).paths.hostpaths ↔ hostpath ∈ routes.map (·.hostpath) := by
  have hnone : hostpath ∉ PathSet.empty.hostpaths := List.not_mem_nil
  rw [mem_hostpaths_routeAll, hbare, or_iff_right hnone]

/-- The paths of a backend that had none are the new routes with their numbers. -/
theorem perm_routeAll : (b.routeAll routes).paths.toList.Perm
    ((newRoutes [] routes).mapIdx fun k r => r.numbered (k + 1)) := by
  induction routes using List.reverseRecOn with
  | nil =>
    rw [routeAll, List.foldl_nil, hbare]
    exact .nil
  | append_singleton routes r ih =>
    have hmem : r.hostpath ∈ (b.routeAll routes).paths.hostpaths ↔
        r.hostpath ∈ routes.map (·.hostpath) := mem_hostpaths_routeAll_of_bare hbare routes
    rw [routeAll_concat, newRoutes_concat]
    by_cases hold : r.hostpath ∈ routes.map (·.hostpath)
    · rw [if_pos (.inr hold), route_eq_self (hmem.mpr hold)]
      exact ih
    · have hsize : (b.routeAll routes).paths.size = (newRoutes [] routes).length :=
        ih.length_eq.trans List.length_mapIdx
      have hnew := perm_route_of_new fun h => hold (hmem.mp h)
      rw [hsize, ← numbered_eq] at hnew
      rw [if_neg (by simpa using hold), List.mapIdx_concat]
      exact hnew.trans ((ih.cons _).trans (List.perm_append_singleton _ _).symm)

theorem size_routeAll : (b.routeAll routes).paths.size = (newRoutes [] routes).length :=
  (perm_routeAll hbare routes).length_eq.trans List.length_mapIdx

end Bare

/-- The paths of a backend are the routes that brought a new hostpath, each with its number among
them. A route to a hostpath that is there changes nothing, any other takes the next number, and no
later route changes a path. So no two paths have one id, and they stand in the order of their
hostpaths. -/
theorem paths_are_numbered_as_they_come (id : BackendId) (tcp : Bool) (endpoints : List Endpoint)
    (routes : List Route) :
    let b := (bare id tcp endpoints).routeAll routes
    b.paths.toList.Perm ((newRoutes [] routes).mapIdx fun k r => r.numbered (k + 1)) ∧
    (∀ r : Route, r.hostpath ∈ routes.map (·.hostpath) → b.route r.host r.path = b) ∧
    (∀ r : Route, r.hostpath ∉ routes.map (·.hostpath) →
      (b.route r.host r.path).paths.find? r.hostpath =
        some (r.numbered ((newRoutes [] routes).length + 1))) ∧
    (∀ later hostpath p, b.paths.find? hostpath = some p →
      (b.routeAll later).paths.find? hostpath = some p) ∧
    (b.paths.toList.map (·.id)).Nodup ∧ b.paths.hostpaths.Pairwise (· < ·) := by
  intro b
  have hbare : (bare id tcp endpoints).paths = .empty := rfl
  have hperm := perm_routeAll hbare routes
  have hmem : ∀ r : Route, r.hostpath ∈ b.paths.hostpaths ↔
      r.hostpath ∈ routes.map (·.hostpath) := fun _ => mem_hostpaths_routeAll_of_bare hbare routes
  refine ⟨hperm, fun r hold => route_eq_self ((hmem r).mpr hold), fun r hnew => ?_,
    fun later hostpath p hfound => find?_routeAll_of_eq_some hfound later, ?_,
    b.paths.ascending_hostpaths⟩
  · rw [← size_routeAll hbare]
    exact find?_route_of_new fun h => hnew ((hmem r).mp h)
  · exact (hperm.map _).nodup_iff.mpr (nodup_ids_numbered _)

end Backend

end Ingress
