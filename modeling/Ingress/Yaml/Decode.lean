-- What nodes say where it is known what they have to be. A text may be spelled in any way there,
-- and a collection that is not written is empty.
import Ingress.Table
import Ingress.Yaml.Value

namespace Ingress.Yaml.Node

/-! ## Single values -/

/-- The text of a scalar, as it is written. -/
def text (node : Node) : Decoder String := do
  match ← node.follow with
  | .scalar _ text _ => return text
  | _ => failure

/-- The text of a scalar that may be nothing. A scalar without quotes is a text if its tag says so,
also one that is not written. -/
def optionalText (node : Node) : Decoder (Option String) := do
  match ← node.follow with
  | .scalar props text .plain =>
    match props.tag with
    | none => return if isNothing text then none else some text
    | some tag =>
      if tag ≠ .null then return some text else if isNull text then return none else failure
  | .scalar _ text _ => return some text
  | _ => failure

/-- The text of a scalar that stands for a value of a type: one without quotes, or one in lines that
are kept if its tag says so. -/
def spelling (tag : Tag) (node : Node) : Decoder String := do
  match ← node.follow with
  | .scalar _ text .plain => return text
  | .scalar props text .literal => if props.tag = some tag then return text else failure
  | _ => failure

/-- The truth value of a scalar. -/
def bool (node : Node) : Decoder Bool := do truth? (← node.spelling .bool)

/-- The number from 0 to `most` of a scalar. -/
def natural (most : Nat) (node : Node) : Decoder Nat := do
  (Yaml.natural? (← node.spelling .int).toList).filter (· ≤ most)

/-- The name of a choice: the text of a scalar, or a local tag in front of nothing. -/
def choice (node : Node) : Decoder String := do
  match ← node.follow with
  | .scalar props text style =>
    match props.tag.bind Tag.localName? with
    | none => return text
    | some name => if style = .plain ∧ isNothing text then return name else failure
  | _ => failure

/-! ## Collections -/

/-- The items of a sequence. -/
def items (node : Node) : Decoder (List Node) := do
  match ← node.follow with
  | .sequence _ items => return items
  | .scalar _ "" .plain => return []
  | _ => failure

/-- The entries of a mapping whose keys are scalars. -/
def entries (node : Node) : Decoder (List (String × Node)) := do
  match ← node.follow with
  | .mapping _ pairs => pairs.mapM fun (key, value) => return (← key.text, value)
  | .scalar _ "" .plain => return []
  | _ => failure

/-- The items of a sequence, each read. -/
def list {α : Type} (read : Node → Decoder α) (node : Node) : Decoder (List α) := do
  (← node.items).mapM read

/-- The values of a mapping, each read. Of two values under one key the later one counts. -/
def table {α : Type} (read : Node → Decoder α) (node : Node) : Decoder (Table α) := do
  return .ofList (← (← node.entries).mapM fun (key, value) => return (key, ← read value))

end Ingress.Yaml.Node

namespace Ingress.Yaml

/-! ## Fields -/

/-- The entries of a mapping in which some keys have a meaning. -/
structure Fields where
  entries : List (String × Node)

namespace Fields

/-- The fields of a mapping in which none of the known keys is repeated. -/
def ofNode (known : List String) (node : Node) : Decoder Fields := do
  let entries ← node.entries
  if known.all fun key => (entries.map (·.1)).count key ≤ 1 then return ⟨entries⟩ else failure

/-- The value under a key, read. -/
def required {α : Type} (f : Fields) (key : String) (read : Node → Decoder α) : Decoder α :=
  match f.entries.lookup key with
  | none => failure
  | some node => read node

/-- The value under a key, read, or another one if there is none. -/
def optional {α : Type} (f : Fields) (key : String) (read : Node → Decoder α) (other : α) :
    Decoder α :=
  match f.entries.lookup key with
  | none => return other
  | some node => read node

end Fields

end Ingress.Yaml
