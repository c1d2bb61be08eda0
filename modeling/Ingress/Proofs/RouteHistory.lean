-- Route tables by the calls that fill them. Hosts and their links only ever come behind the others,
-- so what a table answers is what the first calls say. Main statement: a path of a host leads to
-- the backend of its first link, and a lookup finds the one on the host that came earliest among
-- those whose first link is of the namespace.
import Ingress.Proofs.FirstAppearance
import Ingress.Proofs.RouteTable
import Ingress.Proofs.Writes
import Mathlib.Order.WellFounded

namespace Ingress

/-! ## Calls -/

/-- A call that fills a route table. It acquires a host, and it may link a path of the host. -/
inductive RouteCall where
  | acquire (host : String)
  | link (host path : String) (backend : BackendId)

namespace RouteCall

/-- The host that a call acquires. -/
def host : RouteCall → String
  | acquire host => host
  | link host _ _ => host

/-- The backend that a call links a path of a host to. -/
def backendFor? (host path : String) : RouteCall → Option BackendId
  | acquire _ => none
  | link own ownPath backend => if host = own ∧ path = ownPath then some backend else none

end RouteCall

namespace RouteTable

/-- The table behind a call. -/
def call (t : RouteTable) : RouteCall → RouteTable
  | .acquire host => t.acquire host
  | .link host path backend => t.link host path backend

/-- The table that calls fill, one after the other. -/
def ofCalls (calls : List RouteCall) : RouteTable := calls.foldl call empty

/-- The backend that the first link of a path of a host leads to. -/
def firstLink? (calls : List RouteCall) (host path : String) : Option BackendId :=
  calls.findSome? (·.backendFor? host path)

/-- Whether the first link of a path of a host leads to a backend, which is of a namespace. -/
def Serves (calls : List RouteCall) (ns path host : String) (backend : BackendId) : Prop :=
  firstLink? calls host path = some backend ∧ backend.ns = ns

/-! ## One call -/

section Call

variable (t : RouteTable) (host path : String) (backend : BackendId)

theorem names_call (c : RouteCall) : (t.call c).names =
    if c.host ∈ t.names then t.names else t.names ++ [c.host] := by
  cases c with
  | acquire host => exact t.names_acquire host
  | link host path backend => exact (t.names_link host path backend).trans (t.names_acquire host)

theorem backendAt?_acquire (name other : String) :
    (t.acquire host).backendAt? name other = t.backendAt? name other := by
  unfold backendAt?
  rw [host?_acquire]
  split
  · cases t.host? name <;> rfl
  · rfl

/-- A path keeps the backend it has, and takes the one of the call if it has none. -/
theorem backendAt?_call (c : RouteCall) (name other : String) :
    (t.call c).backendAt? name other = (t.backendAt? name other).or (c.backendFor? name other) := by
  cases c with
  | acquire host =>
    rw [call, backendAt?_acquire]
    exact (Option.or_none).symm
  | link host path backend =>
    rw [call, backendAt?_link, RouteCall.backendFor?]
    split
    · rfl
    · exact (Option.or_none).symm

theorem distinct_call (c : RouteCall) (hdistinct : t.Distinct) : (t.call c).Distinct := by
  cases c with
  | acquire host => exact t.distinct_acquire host hdistinct
  | link host path backend => exact t.distinct_link host path backend hdistinct

end Call

/-! ## All calls -/

theorem ofCalls_concat (calls : List RouteCall) (c : RouteCall) :
    ofCalls (calls ++ [c]) = (ofCalls calls).call c := by
  rw [ofCalls, List.foldl_append]
  rfl

theorem names_ofCalls (calls : List RouteCall) :
    (ofCalls calls).names = (calls.map (·.host)).eraseDups := by
  induction calls using List.reverseRecOn with
  | nil => rfl
  | append_singleton calls c ih =>
    rw [ofCalls_concat, names_call, ih, List.map_append, List.map_singleton, eraseDups_concat]
    simp only [List.mem_eraseDups]

theorem backendAt?_ofCalls (calls : List RouteCall) (host path : String) :
    (ofCalls calls).backendAt? host path = firstLink? calls host path := by
  have hfirst : FirstWins (fun (t : RouteTable) (place : String × String) =>
      t.backendAt? place.1 place.2) call fun c place => c.backendFor? place.1 place.2 :=
    fun t c place => backendAt?_call t c place.1 place.2
  exact get_foldl_of_firstWins hfirst calls empty (host, path)

theorem distinct_ofCalls (calls : List RouteCall) : (ofCalls calls).Distinct := by
  induction calls using List.reverseRecOn with
  | nil => exact distinct_empty
  | append_singleton calls c ih =>
    rw [ofCalls_concat]
    exact distinct_call _ c ih

/-- Acquiring a host again changes nothing, now or later. -/
theorem ofCalls_acquire_again {before : List RouteCall} {host : String}
    (h : host ∈ before.map (·.host)) (after : List RouteCall) :
    ofCalls (before ++ .acquire host :: after) = ofCalls (before ++ after) := by
  have hnames : host ∈ (ofCalls before).names := by
    rw [names_ofCalls]
    exact List.mem_eraseDups.mpr h
  have hagain : (ofCalls before).call (.acquire host) = ofCalls before :=
    acquire_eq_self _ host hnames
  unfold ofCalls at *
  rw [List.foldl_append, List.foldl_append, List.foldl_cons, hagain]

/-! ## Hosts and links -/

section Lookup

variable {t : RouteTable}

/-- A host of a table is found by its name. -/
theorem Distinct.backendAt?_eq (hdistinct : t.Distinct) {h : Host} (hh : h ∈ t.hosts)
    (path : String) : t.backendAt? h.name path = h.backendAt? path := by
  have hfound : t.host? h.name = some h := find?_key_of_nodup hdistinct.hosts hh
  rw [backendAt?, hfound, Option.bind_some]

theorem mem_links_iff {h : Host} (hnodup : (h.links.map (·.path)).Nodup) {path : String}
    {backend : BackendId} : ⟨path, backend⟩ ∈ h.links ↔ h.backendAt? path = some backend := by
  rw [Host.backendAt?, Option.map_eq_some_iff]
  simp only [find?_key_eq_some_iff hnodup]
  constructor
  · intro hmem
    exact ⟨_, ⟨hmem, rfl⟩, rfl⟩
  · rintro ⟨link, ⟨hlink, rfl⟩, rfl⟩
    exact hlink

/-- Of the links of one host, a lookup can only find the one of its path. -/
theorem find?_links {h : Host} (hnodup : (h.links.map (·.path)).Nodup) (ns path : String) :
    (h.links.find? fun l => l.path = path && l.backend.ns = ns).map (·.backend) =
      (h.backendAt? path).filter (·.ns = ns) := by
  rw [find?_key_and_of_nodup hnodup, Host.backendAt?, Option.filter_map]
  rfl

/-- A lookup finds a backend of the namespace behind the path of a host, if the path leads to none
on the hosts before it. -/
theorem Distinct.find?_eq_some_iff (hdistinct : t.Distinct) {ns path : String}
    {backend : BackendId} : t.find? ns path = some backend ↔
      ∃ before h after, t.hosts = before ++ h :: after ∧
        (t.backendAt? h.name path).filter (·.ns = ns) = some backend ∧
        ∀ other ∈ before, (t.backendAt? other.name path).filter (·.ns = ns) = none := by
  have hhost : ∀ h ∈ t.hosts,
      (h.links.find? fun l => l.path = path && l.backend.ns = ns).map (·.backend) =
        (t.backendAt? h.name path).filter (·.ns = ns) := by
    intro h hh
    rw [hdistinct.backendAt?_eq hh, find?_links (hdistinct.paths h hh)]
  unfold find?
  rw [List.find?_flatMap, List.map_findSome?, List.findSome?_eq_some_iff]
  refine exists_congr fun before => exists_congr fun h => exists_congr fun after =>
    and_congr_right fun hsplit => ?_
  have hbefore : ∀ other ∈ before, other ∈ t.hosts := by
    intro other hother
    rw [hsplit]
    exact List.mem_append_left _ hother
  have hh : h ∈ t.hosts := by simp [hsplit]
  rw [Function.comp_apply, hhost h hh]
  refine and_congr_right fun _ => forall₂_congr fun other hother => ?_
  rw [Function.comp_apply, hhost other (hbefore other hother)]

end Lookup

/-! ## The law -/

section Serves

variable {calls : List RouteCall} {ns path host : String} {backend : BackendId}

theorem filter_backendAt?_eq_some_iff :
    ((ofCalls calls).backendAt? host path).filter (·.ns = ns) = some backend ↔
      Serves calls ns path host backend := by
  rw [backendAt?_ofCalls, Option.filter_eq_some_iff, decide_eq_true_eq]
  rfl

/-- A host that serves a path was acquired. -/
theorem mem_hosts_of_serves (h : Serves calls ns path host backend) :
    host ∈ calls.map (·.host) := by
  obtain ⟨c, hc, hown⟩ := List.exists_of_findSome?_eq_some h.1
  cases c with
  | acquire own => cases hown
  | link own ownPath own' =>
    rw [RouteCall.backendFor?] at hown
    split at hown
    · next hfor => exact List.mem_map.mpr ⟨_, hc, hfor.1.symm⟩
    · cases hown

theorem none_of_not_serves (h : ∀ backend, ¬Serves calls ns path host backend) :
    ((ofCalls calls).backendAt? host path).filter (·.ns = ns) = none :=
  Option.eq_none_iff_forall_ne_some.mpr fun backend hserves =>
    h backend (filter_backendAt?_eq_some_iff.mp hserves)

/-- The hosts of a table stand in the order in which they were acquired first. -/
theorem ordered_ofCalls (calls : List RouteCall) : (ofCalls calls).hosts.Pairwise fun h other =>
    (calls.map (·.host)).idxOf h.name < (calls.map (·.host)).idxOf other.name := by
  have hordered := ordered_eraseDups (calls.map (·.host))
  rw [← names_ofCalls, names, List.pairwise_map] at hordered
  exact hordered

theorem exists_host_of_serves (h : Serves calls ns path host backend) :
    ∃ own ∈ (ofCalls calls).hosts, own.name = host := by
  have hnames : host ∈ (ofCalls calls).names := by
    rw [names_ofCalls]
    exact List.mem_eraseDups.mpr (mem_hosts_of_serves h)
  exact List.mem_map.mp hnames

/-- A lookup finds the backend on the host that was acquired first among those that serve the path
in the namespace. -/
theorem find?_ofCalls_eq_some_iff : (ofCalls calls).find? ns path = some backend ↔
    ∃ host, Serves calls ns path host backend ∧
      ∀ other backend', Serves calls ns path other backend' →
        (calls.map (·.host)).idxOf host ≤ (calls.map (·.host)).idxOf other := by
  have hordered := ordered_ofCalls calls
  rw [(distinct_ofCalls calls).find?_eq_some_iff]
  constructor
  · rintro ⟨before, h, after, hsplit, hfound, hbefore⟩
    refine ⟨h.name, filter_backendAt?_eq_some_iff.mp hfound, ?_⟩
    intro other backend' hserves
    obtain ⟨own, hown, rfl⟩ := exists_host_of_serves hserves
    rw [hsplit] at hown hordered
    rcases List.mem_append.mp hown with hearlier | hlater
    · have hfound' := filter_backendAt?_eq_some_iff.mpr hserves
      rw [hbefore own hearlier] at hfound'
      cases hfound'
    · rcases List.mem_cons.mp hlater with rfl | hlater
      · exact Nat.le_refl _
      · have hrest := (List.pairwise_append.mp hordered).2.1
        exact Nat.le_of_lt ((List.pairwise_cons.mp hrest).1 own hlater)
  · rintro ⟨host, hserves, hfirst⟩
    obtain ⟨h, hh, rfl⟩ := exists_host_of_serves hserves
    obtain ⟨before, after, hsplit⟩ := List.append_of_mem hh
    refine ⟨before, h, after, hsplit, filter_backendAt?_eq_some_iff.mpr hserves, ?_⟩
    intro other hother
    apply none_of_not_serves
    intro backend' hserves'
    rw [hsplit] at hordered
    have hlt := (List.pairwise_append.mp hordered).2.2 other hother h List.mem_cons_self
    exact absurd (hfirst _ _ hserves') (Nat.not_le_of_lt hlt)

/-- Where some host serves a path in a namespace, one of them was acquired first. -/
theorem isSome_find?_ofCalls_iff : ((ofCalls calls).find? ns path).isSome ↔
    ∃ host backend, Serves calls ns path host backend := by
  rw [Option.isSome_iff_exists]
  simp only [find?_ofCalls_eq_some_iff]
  constructor
  · rintro ⟨backend, host, hserves, -⟩
    exact ⟨host, backend, hserves⟩
  · rintro ⟨host, backend, hserves⟩
    obtain ⟨first, ⟨backend, hserves⟩, hfirst⟩ :=
      (measure fun host => (calls.map (·.host)).idxOf host).wf.has_min
        {host | ∃ backend, Serves calls ns path host backend} ⟨host, backend, hserves⟩
    refine ⟨backend, first, hserves, fun other backend' hserves' => ?_⟩
    exact Nat.le_of_not_lt (hfirst other ⟨backend', hserves'⟩)

/-- A host holds each of its paths once, with the backend of the path's first link. A lookup finds a
backend exactly if the first link of the path on some host is of the namespace, and then the one on
the host that was acquired first. Acquiring a host again changes nothing. -/
theorem the_earliest_first_link_is_found (calls : List RouteCall) :
    let t := ofCalls calls
    let acquired := calls.map (·.host)
    (FirstAppearances t.names acquired ∧
      ∀ h ∈ t.hosts, (h.links.map (·.path)).Nodup ∧
        ∀ path backend, ⟨path, backend⟩ ∈ h.links ↔
          firstLink? calls h.name path = some backend) ∧
    (∀ ns path,
      ((t.find? ns path).isSome ↔ ∃ host backend, Serves calls ns path host backend) ∧
      ∀ backend, t.find? ns path = some backend ↔
        ∃ host, Serves calls ns path host backend ∧
          ∀ other backend', Serves calls ns path other backend' →
            acquired.idxOf host ≤ acquired.idxOf other) ∧
    ∀ before after, calls = before ++ after → ∀ host ∈ before.map (·.host),
      ofCalls (before ++ .acquire host :: after) = t := by
  intro t acquired
  have hdistinct := distinct_ofCalls calls
  refine ⟨⟨firstAppearances_iff.mpr (names_ofCalls calls), ?_⟩, ?_, ?_⟩
  · intro h hh
    have hnodup := hdistinct.paths h hh
    refine ⟨hnodup, fun path backend => ?_⟩
    rw [mem_links_iff hnodup, ← hdistinct.backendAt?_eq hh, backendAt?_ofCalls]
  · intro ns path
    exact ⟨isSome_find?_ofCalls_iff, fun backend => find?_ofCalls_eq_some_iff⟩
  · rintro before after rfl host hhost
    exact ofCalls_acquire_again hhost after

end Serves

end RouteTable

end Ingress
