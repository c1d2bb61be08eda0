-- Which annotations an update reads for the whole backend. A conflict is told where an annotation
-- is read, and nowhere else. Main statement: an update reads the keys of its features in their
-- order, each at most once, and tells exactly their conflicts.
import Ingress.Proofs.PlainEvents

namespace Ingress

/-! ## Conflicts -/

namespace Logged

variable {α β : Type}

/-- The conflicts that a step tells. -/
def conflicts (x : Logged α) : List Event := x.events.filter (·.isConflict)

@[simp]
theorem conflicts_pure (a : α) : (pure a : Logged α).conflicts = [] := rfl

@[simp]
theorem conflicts_bind (x : Logged α) (f : α → Logged β) :
    (x >>= f).conflicts = x.conflicts ++ (f x.value).conflicts := by
  unfold conflicts
  rw [events_bind, List.filter_append]

theorem conflicts_bind_pure (x : Logged α) (f : α → β) :
    (x >>= fun a => pure (f a)).conflicts = x.conflicts := by
  rw [conflicts_bind, conflicts_pure, List.append_nil]

theorem conflicts_of_plain {x : Logged α} (h : x.Plain) : x.conflicts = [] := by
  unfold conflicts
  rw [List.filter_eq_nil_iff]
  intro e he
  simp [(h e he).agrees]

end Logged

open Logged

namespace Annotations

variable (a : Annotations) (key : String)

/-- What is told when an annotation is read and its resources declare different values. -/
def conflict? : Option Event :=
  match a.declared.canonical? key with
  | none => none
  | some first =>
    if a.declared.overridden key = [] then none
    else some (.conflict a.settings.keyPrefix key first.source first.scope
      (a.declared.overridden key))

theorem conflicts_read : (a.read key).conflicts = (a.conflict? key).toList := by
  unfold read conflict?
  cases a.declared.canonical? key with
  | none => rfl
  | some first =>
    by_cases h : a.declared.overridden key = []
    · simp [h]
    · simp [h, conflicts, Event.isConflict]

theorem mem_events_read_of_conflict? {e : Event} (h : a.conflict? key = some e) :
    e ∈ (a.read key).events := by
  have htold : e ∈ (a.read key).conflicts := by
    rw [conflicts_read, h]
    exact List.mem_singleton_self e
  exact (List.mem_filter.mp htold).1

/-- A step that reads some of the given annotations, in their order, and tells no conflicts but
theirs. -/
def Reads {α : Type} (keys : List String) (x : Logged α) : Prop :=
  ∃ read, List.Sublist read keys ∧ x.conflicts = read.filterMap a.conflict?

end Annotations

theorem conflict?_eq_some_iff {a : Annotations} {key : String} {e : Event} :
    a.conflict? key = some e ↔ ∃ first, a.declared.canonical? key = some first ∧
      a.declared.overridden key ≠ [] ∧ e = .conflict a.settings.keyPrefix key first.source
        first.scope (a.declared.overridden key) := by
  unfold Annotations.conflict?
  cases a.declared.canonical? key with
  | none => simp
  | some first => by_cases h : a.declared.overridden key = [] <;> simp [h, eq_comm]

namespace Annotations.Reads

variable {a : Annotations} {α β : Type} {keys keys' : List String} {x : Logged α}
  {f : α → Logged β}

theorem silent (h : x.conflicts = []) : a.Reads keys x := ⟨[], List.nil_sublist keys, h⟩

theorem bind (hx : a.Reads keys x) (hf : a.Reads keys' (f x.value)) :
    a.Reads (keys ++ keys') (x >>= f) := by
  obtain ⟨read, hread, hconflicts⟩ := hx
  obtain ⟨read', hread', hconflicts'⟩ := hf
  refine ⟨read ++ read', hread.append hread', ?_⟩
  rw [conflicts_bind, hconflicts, hconflicts', List.filterMap_append]

theorem silent_bind (hx : x.conflicts = []) (hf : a.Reads keys (f x.value)) :
    a.Reads keys (x >>= f) := by
  obtain ⟨read, hread, hconflicts⟩ := hf
  refine ⟨read, hread, ?_⟩
  rw [conflicts_bind, hx, hconflicts, List.nil_append]

theorem read (key : String) : a.Reads [key] (a.read key) := by
  refine ⟨[key], List.Sublist.refl [key], ?_⟩
  rw [conflicts_read]
  cases h : a.conflict? key <;> simp [h]

theorem read_bind {key : String} {f : Reading → Logged β}
    (hf : a.Reads keys (f (a.read key).value)) : a.Reads (key :: keys) (a.read key >>= f) :=
  (read key).bind hf

theorem readChecked (key : String) : a.Reads [key] (a.readChecked key) := by
  apply read_bind
  apply silent
  split
  · rfl
  · rw [conflicts_bind, conflicts_of_plain (plain_check a _ _ _)]
    split <;> rfl

theorem readBool (key : String) : a.Reads [key] (a.readBool key) :=
  (readChecked key).bind (silent rfl)

end Annotations.Reads

open Annotations (Reads)

/-! ## Features -/

section Features

variable (a : Annotations)

/-- What a session cookie reads. -/
def SessionCookie.readKeys : List String :=
  [Key.affinity, Key.cookieName, Key.cookieStrategy, Key.cookieDynamic]

theorem reads_sessionCookie : a.Reads SessionCookie.readKeys (SessionCookie.resolve a) := by
  apply Reads.read_bind
  split
  · exact .silent rfl
  · split
    · exact .silent rfl
    · apply Reads.read_bind
      apply Reads.read_bind
      apply Reads.silent_bind (conflicts_of_plain (plain_strategy _))
      exact (Reads.readBool Key.cookieDynamic).bind (.silent rfl)

/-- What basic authentication reads. -/
def UserAuth.readKeys : List String := [Key.authType, Key.authSecret, Key.authRealm]

theorem conflicts_register (cluster : ClusterView) (origin : Origin) (secret : String)
    (lists : List Userlist) : (UserAuth.register cluster origin secret lists).conflicts = [] := by
  unfold UserAuth.register
  split
  · rfl
  · cases cluster.secret secret UserAuth.usersKey with
    | error error => rfl
    | ok content =>
      rw [conflicts_bind, conflicts_of_plain (.tellAll fun e => plain_userlistEvents)]
      rfl

theorem reads_userAuth (cluster : ClusterView) (ns : String) (lists : List Userlist) :
    a.Reads UserAuth.readKeys (UserAuth.resolve a cluster ns lists) := by
  apply Reads.read_bind
  split
  · exact .silent rfl
  · split
    · exact .silent rfl
    · apply Reads.read_bind
      split
      · exact .silent rfl
      · apply Reads.silent_bind (conflicts_register cluster _ _ lists)
        split
        · exact .silent rfl
        · apply Reads.read_bind
          exact .silent_bind (conflicts_of_plain (plain_realm _)) (.silent rfl)

/-- What external authentication reads. -/
def ExternalAuth.readKeys : List String := [Key.oauth, Key.oauthUri, Key.oauthHeaders]

theorem reads_externalAuth (routes : RouteTable) (ns : String) :
    a.Reads ExternalAuth.readKeys (ExternalAuth.resolve a routes ns) := by
  apply Reads.read_bind
  split
  · exact .silent rfl
  · split
    · exact .silent rfl
    · apply Reads.read_bind
      unfold ExternalAuth.viaProxy
      dsimp only
      split
      · exact .silent rfl
      · apply Reads.read_bind
        exact .silent_bind (conflicts_of_plain (.tellAll fun e => plain_headerEvents)) (.silent rfl)

/-- What the firewall reads. -/
def Firewall.readKeys : List String := [Key.waf]

theorem reads_firewall : a.Reads Firewall.readKeys (Firewall.resolve a) := by
  apply Reads.read_bind
  apply Reads.silent
  split
  · rfl
  · split <;> rfl

end Features

namespace Draft

variable (d : Draft) (cluster : ClusterView) (routes : RouteTable) (lists : List Userlist)

/-- What a balance reads. -/
def balanceKeys : List String := [Key.balance, Key.balanceMode]

theorem reads_endpoints : d.annotations.Reads balanceKeys (d.endpoints cluster) := by
  apply Reads.read_bind
  split
  · exact .silent rfl
  · apply Reads.read_bind
    exact .silent (conflicts_of_plain (plain_balance _ _ _ _ _))

/-- What allowed ranges read. Those of HTTP are resolved on each path. -/
def rangeKeys : List String := if d.backend.tcp then [Key.sourceRange] else []

theorem reads_tcpRanges : d.annotations.Reads d.rangeKeys d.tcpRanges := by
  unfold tcpRanges rangeKeys
  split
  · apply Reads.read_bind
    exact .silent_bind (conflicts_of_plain (.tellAll fun e => plain_invalidEvents)) (.silent rfl)
  · exact .silent rfl

/-! ## Updates -/

/-- What an update reads for the whole backend. -/
def readKeys : List String :=
  SessionCookie.readKeys ++ (UserAuth.readKeys ++ (balanceKeys ++ (ExternalAuth.readKeys ++
    (Firewall.readKeys ++ d.rangeKeys))))

/-- An update reads the keys of its features in their order, each at most once. -/
theorem reads_update : d.annotations.Reads d.readKeys (d.update cluster routes lists) := by
  apply (reads_sessionCookie d.annotations).bind
  apply (reads_userAuth d.annotations cluster d.backend.id.ns lists).bind
  apply (d.reads_endpoints cluster).bind
  apply Reads.silent_bind (conflicts_of_plain (plain_strictTransport _ _))
  apply (reads_externalAuth d.annotations routes d.backend.id.ns).bind
  apply Reads.silent_bind (conflicts_of_plain (plain_rewriteTarget _ _ _))
  apply (reads_firewall d.annotations).bind
  apply Reads.silent_bind (conflicts_of_plain (plain_httpRanges d))
  rw [← List.append_nil d.rangeKeys]
  exact d.reads_tcpRanges.bind (.silent rfl)

/-- The keys that ask for a feature or a balance, and the allowed ranges of a backend for TCP. An
update reads them whatever else it finds. -/
def mainKeys : List String :=
  [Key.affinity, Key.authType, Key.balance, Key.oauth, Key.waf] ++ d.rangeKeys

/-- An update tells whatever is told where it reads a main key. -/
theorem mem_events_update_of_read {key : String} {e : Event} (hkey : key ∈ d.mainKeys)
    (he : e ∈ (d.annotations.read key).events) :
    e ∈ (d.update cluster routes lists).events := by
  unfold update
  simp only [Logged.events_bind, List.mem_append]
  unfold mainKeys at hkey
  simp only [List.mem_append, List.mem_cons, List.not_mem_nil, or_false] at hkey
  rcases hkey with (rfl | rfl | rfl | rfl | rfl) | hrange
  · have hstep : e ∈ (SessionCookie.resolve d.annotations).events := List.mem_append_left _ he
    simp only [hstep, true_or]
  · have hstep : e ∈ (UserAuth.resolve d.annotations cluster d.backend.id.ns lists).events :=
      List.mem_append_left _ he
    simp only [hstep, true_or, or_true]
  · have hstep : e ∈ (d.endpoints cluster).events := List.mem_append_left _ he
    simp only [hstep, true_or, or_true]
  · have hstep : e ∈ (ExternalAuth.resolve d.annotations routes d.backend.id.ns).events :=
      List.mem_append_left _ he
    simp only [hstep, true_or, or_true]
  · have hstep : e ∈ (Firewall.resolve d.annotations).events := List.mem_append_left _ he
    simp only [hstep, true_or, or_true]
  · have hstep : e ∈ d.tcpRanges.events := by
      unfold rangeKeys at hrange
      unfold tcpRanges
      split at hrange
      · next htcp =>
        rw [List.mem_singleton.mp hrange] at he
        rw [if_pos htcp]
        exact List.mem_append_left _ he
      · cases hrange
    simp only [hstep, true_or, or_true]

end Draft

end Ingress
