-- The settings that all backends share: the prefix of the controller's annotations, the values of
-- annotations that nobody declares, and the kinds of values that annotations must have.
import Ingress.Key
import Ingress.Text.Integer

namespace Ingress

/-! ## Kinds of values -/

/-- The truth value of a literal. -/
def readBool? (s : String) : Option Bool :=
  if s ∈ ["1", "t", "T", "TRUE", "true", "True"] then some true
  else if s ∈ ["0", "f", "F", "FALSE", "false", "False"] then some false
  else none

/-- A kind of values that an annotation may be bound to. -/
inductive ValueKind where
  | int
  | bool
deriving DecidableEq

namespace ValueKind

/-- A kind as messages and configurations name it. -/
def name : ValueKind → String
  | int => "int"
  | bool => "bool"

/-- The kind of a name. -/
def ofName? (s : String) : Option ValueKind :=
  if s = "int" then some int else if s = "bool" then some bool else none

/-- Whether a text is a literal of a kind. -/
def accepts (kind : ValueKind) (s : String) : Bool :=
  match kind with
  | int => (Text.integer? s).isSome
  | bool => (readBool? s).isSome

/-- The kind of an annotation that no setting binds to another one. -/
def builtin? (key : String) : Option ValueKind :=
  if key ∈ [Key.hsts, Key.hstsSubdomains, Key.hstsPreload, Key.cookieDynamic] then some bool
  else if key = Key.hstsMaxAge then some int
  else none

end ValueKind

/-! ## Settings -/

/-- The settings shared by all backends. -/
structure Settings where
  keyPrefix : String
  defaults : Table String
  kinds : Table ValueKind
deriving DecidableEq

/-- Why settings are refused. -/
inductive SettingsError where
  | emptyDefaultKey
  | emptyKindKey
  | badDefault (key value : String) (kind : ValueKind)
deriving DecidableEq

/-- The wording of a refusal. -/
def SettingsError.message : SettingsError → String
  | .emptyDefaultKey => "Empty annotation key in defaults"
  | .emptyKindKey => "Empty annotation key in validators"
  | .badDefault key value kind =>
    "Default value '" ++ value ++ "' of annotation '" ++ key ++ "' is not a valid " ++ kind.name

namespace Settings

/-- The settings without a prefix, without defaults and with the built-in kinds only. -/
def plain : Settings := ⟨"", .empty, .empty⟩

/-- The value of an annotation that nobody declares. -/
def default (s : Settings) (key : String) : String := (s.defaults.find? key).getD ""

/-- The kind an annotation is bound to. A setting comes before the built-in kind. -/
def kind? (s : Settings) (key : String) : Option ValueKind :=
  (s.kinds.find? key).or (ValueKind.builtin? key)

/-- Whether an annotation may have a value: it does if no kind is given or the kind accepts it. -/
def accepts (s : Settings) (key value : String) : Bool :=
  match s.kind? key with
  | none => true
  | some kind => kind.accepts value

/-- The first default, by key, that is not empty and not of the kind of its annotation. -/
def badDefault? (s : Settings) : Option SettingsError :=
  s.defaults.entries.findSome? fun (key, value) =>
    match s.kind? key with
    | none => none
    | some kind =>
      if value = "" ∨ kind.accepts value then none else some (.badDefault key value kind)

/-- The first fault of the settings, if any: an empty key, then a default of the wrong kind. -/
def fault? (s : Settings) : Option SettingsError :=
  if "" ∈ s.defaults.keys then some .emptyDefaultKey
  else if "" ∈ s.kinds.keys then some .emptyKindKey
  else s.badDefault?

end Settings

end Ingress
