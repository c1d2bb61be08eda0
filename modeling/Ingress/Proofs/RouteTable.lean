-- What a route table answers. Hosts and the paths of a host stay without repetition, so a link is
-- found by its host and its path. Main statement: a path of a host leads to the backend that it was
-- linked to first.
import Ingress.Proofs.Keyed
import Ingress.RouteTable

namespace Ingress

/-! ## Hosts -/

namespace Host

variable (h : Host) (path : String) (backend : BackendId)

/-- The backend that a path leads to. -/
def backendAt? (h : Host) (path : String) : Option BackendId :=
  (h.links.find? (·.path = path)).map (·.backend)

theorem name_link : (h.link path backend).name = h.name := by
  unfold link
  split <;> rfl

/-- A link on the host of a name keeps the name of every host. -/
theorem name_ite_link (host : String) :
    (if h.name = host then h.link path backend else h).name = h.name := by
  split
  · exact h.name_link path backend
  · rfl

theorem any_path_eq_isSome : h.links.any (·.path = path) = (h.backendAt? path).isSome := by
  rw [backendAt?, Option.isSome_map, List.isSome_find?]

/-- A path keeps the backend that it was linked to first. -/
theorem backendAt?_link (other : String) : (h.link path backend).backendAt? other =
    if other = path then (h.backendAt? other).or (some backend) else h.backendAt? other := by
  unfold link
  rw [any_path_eq_isSome]
  by_cases hother : other = path
  · subst hother
    cases hat : h.backendAt? other with
    | some old => simp [hat]
    | none =>
      rw [backendAt?, Option.map_eq_none_iff] at hat
      simp [backendAt?, List.find?_append, hat]
  · rw [if_neg hother]
    split
    · rfl
    · simp [backendAt?, List.find?_append, Ne.symm hother]

theorem nodup_link (hnodup : (h.links.map (·.path)).Nodup) :
    ((h.link path backend).links.map (·.path)).Nodup := by
  unfold link
  split
  · exact hnodup
  · next hnew =>
    apply nodup_keys_append hnodup
    rw [mem_keys_iff_any]
    exact hnew

end Host

/-! ## Tables -/

namespace RouteTable

variable (t : RouteTable) (host path : String) (backend : BackendId)

/-- The backend that a path of a host leads to. -/
def backendAt? (t : RouteTable) (host path : String) : Option BackendId :=
  (t.host? host).bind (·.backendAt? path)

/-- Whether no host and no path of a host is repeated. -/
structure Distinct (t : RouteTable) : Prop where
  hosts : (t.hosts.map (·.name)).Nodup
  paths : ∀ h ∈ t.hosts, (h.links.map (·.path)).Nodup

theorem host?_acquire (name : String) : (t.acquire host).host? name =
    if name = host then some ((t.host? name).getD ⟨name, []⟩) else t.host? name := by
  have hany : t.hosts.any (·.name = host) = (t.host? host).isSome := List.isSome_find?.symm
  unfold acquire
  rw [hany]
  by_cases hname : name = host
  · subst hname
    cases hat : t.host? name with
    | some h => simp [hat]
    | none =>
      unfold host? at hat ⊢
      simp [List.find?_append, hat]
  · rw [if_neg hname]
    split
    · rfl
    · simp [host?, List.find?_append, Ne.symm hname]

theorem name_of_host? {name : String} {h : Host} (hfound : t.host? name = some h) :
    h.name = name := by
  have hname := List.find?_some hfound
  exact of_decide_eq_true hname

theorem host?_link (name : String) : (t.link host path backend).host? name =
    if name = host then some (((t.host? name).getD ⟨name, []⟩).link path backend)
    else t.host? name := by
  -- A link keeps the names of hosts, so each is found behind it where it was found before.
  have hfind : (t.link host path backend).host? name = ((t.acquire host).host? name).map fun h =>
      if h.name = host then h.link path backend else h := by
    simp only [link, host?, List.find?_map, Function.comp_def, Host.name_ite_link]
  rw [hfind, host?_acquire]
  by_cases hname : name = host
  · subst hname
    cases hat : t.host? name with
    | none => simp
    | some h => simp [t.name_of_host? hat]
  · rw [if_neg hname, if_neg hname]
    cases hat : t.host? name with
    | none => rfl
    | some h => simp [t.name_of_host? hat, hname]

/-- A path of a host keeps the backend that it was linked to first. -/
theorem backendAt?_link (name other : String) :
    (t.link host path backend).backendAt? name other =
      if name = host ∧ other = path then (t.backendAt? name other).or (some backend)
      else t.backendAt? name other := by
  unfold backendAt?
  rw [host?_link]
  by_cases hname : name = host
  · rw [if_pos hname, Option.bind_some, Host.backendAt?_link]
    cases t.host? name with
    | none => simp [hname, Host.backendAt?]
    | some h => simp [hname]
  · simp [hname]

/-! ## Names -/

/-- The names of the hosts. -/
def names (t : RouteTable) : List String := t.hosts.map (·.name)

/-- A host that is there already is not acquired again. -/
theorem acquire_eq_self (h : host ∈ t.names) : t.acquire host = t := by
  unfold acquire
  rw [if_pos (mem_keys_iff_any.mp h)]

theorem names_acquire : (t.acquire host).names =
    if host ∈ t.names then t.names else t.names ++ [host] := by
  split
  · next h => rw [t.acquire_eq_self host h]
  · next h =>
    unfold acquire
    rw [if_neg (mt mem_keys_iff_any.mpr h)]
    simp [names]

theorem names_link : (t.link host path backend).names = (t.acquire host).names := by
  unfold names link
  rw [List.map_map]
  exact List.map_congr_left fun h _ => h.name_ite_link path backend host

/-! ## No repetition -/

theorem distinct_empty : Distinct empty := ⟨by simp [empty], by simp [empty]⟩

theorem distinct_acquire (hdistinct : t.Distinct) : (t.acquire host).Distinct := by
  unfold acquire
  split
  · exact hdistinct
  · next hnew =>
    constructor
    · apply nodup_keys_append hdistinct.hosts
      rw [mem_keys_iff_any]
      exact hnew
    · intro h hh
      rcases List.mem_append.mp hh with hold | hnew
      · exact hdistinct.paths h hold
      · rw [List.mem_singleton.mp hnew]
        exact List.nodup_nil

theorem distinct_link (hdistinct : t.Distinct) : (t.link host path backend).Distinct := by
  have hacquired := t.distinct_acquire host hdistinct
  constructor
  · have hnames : (t.link host path backend).hosts.map (·.name) =
        (t.acquire host).hosts.map (·.name) := t.names_link host path backend
    rw [hnames]
    exact hacquired.hosts
  · intro h' hh'
    obtain ⟨h, hh, rfl⟩ := List.mem_map.mp hh'
    split
    · exact h.nodup_link path backend (hacquired.paths h hh)
    · exact hacquired.paths h hh

/-! ## Lookups -/

/-- The backend that a lookup finds is of the namespace, and some host's path leads to it. -/
theorem backendAt?_of_find? {ns path : String} {backend : BackendId} (hdistinct : t.Distinct)
    (hfind : t.find? ns path = some backend) :
    backend.ns = ns ∧ ∃ host, t.backendAt? host path = some backend := by
  obtain ⟨l, hl, rfl⟩ := Option.map_eq_some_iff.mp hfind
  have hmatch := List.find?_some hl
  rw [Bool.and_eq_true, decide_eq_true_eq, decide_eq_true_eq] at hmatch
  obtain ⟨h, hh, hlink⟩ := List.mem_flatMap.mp (List.mem_of_find?_eq_some hl)
  refine ⟨hmatch.2, h.name, ?_⟩
  have hhost : t.host? h.name = some h := find?_key_of_nodup hdistinct.hosts hh
  have hpath := find?_key_of_nodup (hdistinct.paths h hh) hlink
  rw [backendAt?, hhost, Option.bind_some, Host.backendAt?, ← hmatch.1, hpath]
  rfl

end RouteTable

end Ingress
