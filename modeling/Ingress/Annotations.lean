-- The annotations of one backend: what its resources declare, read under the settings. An
-- annotation is read for the whole backend, or resolved on each path by itself.
import Ingress.Declarations
import Ingress.Logged

namespace Ingress

/-- Declarations and the settings under which they are read. -/
structure Annotations where
  settings : Settings
  declared : Declarations

/-- The value of an annotation and where it comes from. -/
structure Reading where
  value : String
  origin : Origin
deriving DecidableEq

namespace Reading

/-- The truth value of a reading. A text that is no literal counts as false. -/
def toBool (r : Reading) : Bool := (readBool? r.value).getD false

/-- The integer of a reading. A text that is no literal counts as 0. -/
def toInt (r : Reading) : Int := (Text.integer? r.value).getD 0

/-- The value of a reading, or another one in place of the empty value. -/
def orElse (r : Reading) (other : String) : String := if r.value = "" then other else r.value

end Reading

namespace Annotations

/-- Annotations under settings before anything is declared. -/
def empty (settings : Settings) : Annotations := ⟨settings, .empty⟩

/-! ## For the whole backend -/

/-- What the settings say of an annotation. -/
def defaultReading (a : Annotations) (key : String) : Reading := ⟨a.settings.default key, none⟩

/-- Reads an annotation: its first declaration, else its default. Resources that declare another
value are told. -/
def read (a : Annotations) (key : String) : Logged Reading :=
  match a.declared.canonical? key with
  | none => pure (a.defaultReading key)
  | some first => do
    let others := a.declared.overridden key
    if others ≠ [] then
      Logged.tell (.conflict a.settings.keyPrefix key first.source first.scope others)
    return ⟨first.value, some first.source⟩

/-- Whether a declared value of an annotation is of its kind. A value that is not is told. -/
def check (a : Annotations) (key : String) (source : ResourceId) (value : String) :
    Logged Bool :=
  match a.settings.kind? key with
  | none => pure true
  | some kind =>
    if kind.accepts value then pure true
    else do
      Logged.tell (.invalidValue key kind source value)
      return false

/-- Reads an annotation, with its default in place of a declared value of the wrong kind. -/
def readChecked (a : Annotations) (key : String) : Logged Reading := do
  let reading ← a.read key
  match reading.origin with
  | none => return reading
  | some source =>
    if ← a.check key source reading.value then return reading
    else return a.defaultReading key

/-- The truth value of an annotation. -/
def readBool (a : Annotations) (key : String) : Logged Bool := do
  return (← a.readChecked key).toBool

/-- The integer of an annotation. -/
def readInt (a : Annotations) (key : String) : Logged Int := do
  return (← a.readChecked key).toInt

/-! ## On each path -/

/-- The value of an annotation on a path: what is declared at its hostpath, if that is of the right
kind, else the default. -/
def resolve (a : Annotations) (key : String) (path : RoutePath) : Logged String :=
  match a.declared.at? key path.hostpath with
  | none => pure (a.settings.default key)
  | some d => do
    if ← a.check key d.source d.value then return d.value
    else return a.settings.default key

/-- The values of annotations on a path, by key. They are resolved in the order given. -/
def resolveAll (a : Annotations) (keys : List String) (path : RoutePath) :
    Logged (Table String) := do
  return Table.ofList (← keys.mapM fun key => do return (key, ← a.resolve key path))

/-- The groups of paths by what `convert` makes of the values of annotations. -/
def groupWith {α : Type} [DecidableEq α] (a : Annotations) (paths : PathSet)
    (keys : List String) (convert : Table String → α) : Logged (List (PathGroup α)) :=
  paths.groupBy fun path => do return convert (← a.resolveAll keys path)

/-- The groups of paths by the values of annotations. -/
def groupAll (a : Annotations) (paths : PathSet) (keys : List String) :
    Logged (List (PathGroup (Table String))) :=
  paths.groupBy (a.resolveAll keys)

/-- The groups of paths by the value of one annotation. -/
def group (a : Annotations) (paths : PathSet) (key : String) :
    Logged (List (PathGroup String)) :=
  paths.groupBy (a.resolve key)

end Annotations

end Ingress
