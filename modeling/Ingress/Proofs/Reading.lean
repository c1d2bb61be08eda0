-- What readers find. For the whole backend the first declaration decides, on a path the one at its
-- hostpath, and the default stands in where nothing is declared. Main statements: the value that
-- each reader gives is the one that these rules name, and resolving a key on a path tells of the
-- value that is declared there, if it is not of the kind of the key, and of nothing else.
import Ingress.Annotations
import Ingress.Proofs.Writes

namespace Ingress

namespace Settings

variable (s : Settings) (key : String)

/-- The reading of the first of some declarations, or the default if there are none. -/
def firstReading : List Declaration → Reading
  | [] => ⟨s.default key, none⟩
  | first :: _ => ⟨first.value, some first.source⟩

/-- A reading, with the default in place of a declared value of the wrong kind. -/
def checked (r : Reading) : Reading :=
  if r.origin = none ∨ s.accepts key r.value = true then r else ⟨s.default key, none⟩

/-- The value that a declaration settles for a key: its own, if it is of the right kind, else the
default, as where there is no declaration. -/
def settled : Option Declaration → String
  | none => s.default key
  | some d => if s.accepts key d.value then d.value else s.default key

/-- What is told of a declared value that is not of the kind of its key. -/
def invalid? (source : ResourceId) (value : String) : Option Event :=
  (s.kind? key).bind fun kind =>
    if kind.accepts value then none else some (.invalidValue key kind source value)

/-- What is told of the value of a declaration, if there is one. -/
def refusal? (d? : Option Declaration) : Option Event :=
  d?.bind fun d => s.invalid? key d.source d.value

variable {s key}

theorem invalid?_eq_some_iff {source : ResourceId} {value : String} {e : Event} :
    s.invalid? key source value = some e ↔ ∃ kind, s.kind? key = some kind ∧
      kind.accepts value = false ∧ e = .invalidValue key kind source value := by
  unfold invalid?
  rw [Option.bind_eq_some_iff]
  refine exists_congr fun kind => and_congr_right fun _ => ?_
  cases h : kind.accepts value <;> simp [eq_comm]

theorem refusal?_eq_some_iff {d? : Option Declaration} {e : Event} :
    s.refusal? key d? = some e ↔ ∃ d, d? = some d ∧ ∃ kind, s.kind? key = some kind ∧
      kind.accepts d.value = false ∧ e = .invalidValue key kind d.source d.value := by
  unfold refusal?
  simp only [Option.bind_eq_some_iff, invalid?_eq_some_iff]

/-- A value is refused if the kind of its key does not accept it. -/
theorem accepts_eq_false_iff {value : String} : s.accepts key value = false ↔
    ∃ kind, s.kind? key = some kind ∧ kind.accepts value = false := by
  unfold accepts
  cases s.kind? key <;> simp

end Settings

namespace Annotations

variable (a : Annotations) (key : String)

/-- The canonical reading of an annotation: its first declaration, or its default. -/
def canonical : Reading := a.settings.firstReading key (a.declared.ofKey key)

/-- The value of an annotation at a scope, settled by what is declared there. -/
def valueAt (scope : String) : String := a.settings.settled key (a.declared.at? key scope)

theorem value_check (source : ResourceId) (value : String) :
    (a.check key source value).value = a.settings.accepts key value := by
  unfold check Settings.accepts
  cases a.settings.kind? key with
  | none => rfl
  | some kind => cases h : kind.accepts value <;> simp [h]

theorem events_check (source : ResourceId) (value : String) :
    (a.check key source value).events = (a.settings.invalid? key source value).toList := by
  unfold check Settings.invalid?
  cases a.settings.kind? key with
  | none => rfl
  | some kind => cases h : kind.accepts value <;> simp [h]

theorem mem_events_check {source : ResourceId} {value : String} {e : Event}
    (he : e ∈ (a.check key source value).events) :
    ∃ kind, e = .invalidValue key kind source value := by
  rw [events_check, Option.mem_toList] at he
  obtain ⟨kind, -, -, rfl⟩ := Settings.invalid?_eq_some_iff.mp he
  exact ⟨kind, rfl⟩

theorem value_read : (a.read key).value = a.canonical key := by
  unfold read canonical Declarations.canonical?
  cases a.declared.ofKey key with
  | nil => rfl
  | cons first rest =>
    dsimp only [List.head?]
    split <;> rfl

theorem value_readChecked :
    (a.readChecked key).value = a.settings.checked key (a.read key).value := by
  unfold readChecked Settings.checked
  rw [Logged.value_bind]
  cases horigin : (a.read key).value.origin with
  | none => simp
  | some source =>
    simp only [Logged.value_bind, value_check]
    cases a.settings.accepts key (a.read key).value.value <;> rfl

theorem value_readBool :
    (a.readBool key).value = (a.settings.checked key (a.read key).value).toBool := by
  rw [← value_readChecked]
  rfl

theorem value_readInt :
    (a.readInt key).value = (a.settings.checked key (a.read key).value).toInt := by
  rw [← value_readChecked]
  rfl

theorem value_resolve (path : RoutePath) :
    (a.resolve key path).value = a.valueAt key path.hostpath := by
  unfold resolve valueAt Settings.settled
  cases a.declared.at? key path.hostpath with
  | none => rfl
  | some d =>
    simp only [Logged.value_bind, value_check]
    cases a.settings.accepts key d.value <;> rfl

theorem events_resolve (path : RoutePath) : (a.resolve key path).events =
    (a.settings.refusal? key (a.declared.at? key path.hostpath)).toList := by
  unfold resolve Settings.refusal?
  cases a.declared.at? key path.hostpath with
  | none => rfl
  | some d =>
    simp only [Logged.events_bind, events_check, Option.bind_some]
    split <;> exact List.append_nil _

theorem mem_events_resolve {path : RoutePath} {e : Event}
    (he : e ∈ (a.resolve key path).events) :
    ∃ kind source value, e = .invalidValue key kind source value := by
  rw [events_resolve, Option.mem_toList] at he
  obtain ⟨d, -, kind, -, -, rfl⟩ := Settings.refusal?_eq_some_iff.mp he
  exact ⟨kind, d.source, d.value, rfl⟩

/-! ## On all paths -/

theorem events_groupBy {α : Type} [DecidableEq α] (paths : PathSet)
    (resolve : RoutePath → Logged α) :
    (paths.groupBy resolve).events = paths.toList.flatMap fun p => (resolve p).events := by
  unfold PathSet.groupBy
  simp [Logged.events_mapM]

theorem events_group (paths : PathSet) :
    (a.group paths key).events = paths.toList.flatMap fun p => (a.resolve key p).events :=
  events_groupBy paths (a.resolve key)

theorem mem_events_group {paths : PathSet} {e : Event} (he : e ∈ (a.group paths key).events) :
    ∃ kind source value, e = .invalidValue key kind source value := by
  rw [events_group] at he
  obtain ⟨path, -, hpath⟩ := List.mem_flatMap.mp he
  exact a.mem_events_resolve key hpath

variable (keys : List String) (path : RoutePath)

theorem value_resolveAll : (a.resolveAll keys path).value =
    Table.ofList (keys.map fun key => (key, a.valueAt key path.hostpath)) := by
  unfold resolveAll
  simp [Logged.value_mapM, value_resolve]

theorem events_resolveAll : (a.resolveAll keys path).events =
    keys.flatMap fun key => (a.resolve key path).events := by
  unfold resolveAll
  simp [Logged.events_mapM]

/-- A key that is resolved has its value on the path, and no other key has one. -/
theorem find?_resolveAll : (a.resolveAll keys path).value.find? key =
    if key ∈ keys then some (a.valueAt key path.hostpath) else none := by
  rw [value_resolveAll]
  apply Table.find?_ofList_of_mem_iff
  intro value
  rw [List.mem_map]
  constructor
  · rintro ⟨own, hown, heq⟩
    cases heq
    rw [if_pos hown]
  · intro hvalue
    split at hvalue
    · next hkey =>
      cases hvalue
      exact ⟨key, hkey, rfl⟩
    · cases hvalue

theorem events_groupWith {α : Type} [DecidableEq α] (paths : PathSet)
    (convert : Table String → α) : (a.groupWith paths keys convert).events =
      paths.toList.flatMap fun p => keys.flatMap fun key => (a.resolve key p).events := by
  unfold groupWith
  rw [events_groupBy]
  simp [events_resolveAll]

end Annotations

end Ingress
