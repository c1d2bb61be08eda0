-- Values with the types that their tags or their spelling give them: a scalar without quotes may be
-- nothing, a truth value or a number, and only what is none of these is a text.
import Ingress.Yaml.Number
import Ingress.Yaml.Reference

namespace Ingress.Yaml

/-! ## Scalars -/

/-- Whether a text is a name of nothing. -/
def isNull (text : String) : Bool := ["~", "null", "Null", "NULL"].contains text

/-- Whether a text without quotes stands for nothing. -/
def isNothing (text : String) : Bool := text = "" || isNull text

/-- The truth value that a text without quotes stands for. -/
def truth? (text : String) : Option Bool :=
  if ["true", "True", "TRUE"].contains text then some true
  else if ["false", "False", "FALSE"].contains text then some false
  else none

/-- A value with a type of its own. Integers with a minus sign are a type apart, also a zero. -/
inductive Value where
  | null
  | bool (b : Bool)
  | natural (n : Nat)
  | negated (n : Nat)
  | float
  | text (s : String)
  | sequence (items : List Value)
  | mapping (entries : List (Value × Value))

namespace Value

/-- How deeply collections may be nested, the document itself counted. -/
def maxDepth : Nat := 128

/-- The value of an integer without a minus sign, which is refused if it needs more than 64 and at
most 128 bits. What needs more is a number of another kind. -/
def ofNatural? (n : Nat) (other : Value) : Option Value :=
  if n < Nat.pow 2 64 then some (.natural n)
  else if n < Nat.pow 2 128 then none
  else some other

/-- The value of an integer with a minus sign, whose bits include one for the sign. -/
def ofNegated? (n : Nat) (other : Value) : Option Value :=
  if n ≤ Nat.pow 2 63 then some (.negated n)
  else if n ≤ Nat.pow 2 127 then none
  else some other

/-- The value of a text without quotes. -/
def ofPlain? (s : String) : Option Value :=
  let other := if isFloat s.toList && !hasLeadingZero s.toList then .float else .text s
  if isNothing s then some .null
  else match truth? s with
    | some b => some (.bool b)
    | none =>
      match natural? s.toList, negated? s.toList with
      | some n, _ => ofNatural? n other
      | none, some n => ofNegated? n other
      | none, none => some other

/-- The value of an integer of at most 64 bits. -/
def ofInteger? (s : String) : Option Value :=
  match natural? s.toList, negated? s.toList with
  | some n, _ => if n < Nat.pow 2 64 then some (.natural n) else none
  | none, some n => if n ≤ Nat.pow 2 63 then some (.negated n) else none
  | none, none => none

/-- The value of a text with a global tag. Tags that are not common say that it is a text. -/
def ofTagged? (tag : Tag) (s : String) : Option Value :=
  if tag = .bool then (truth? s).map .bool
  else if tag = .int then ofInteger? s
  else if tag = .float then if isFloat s.toList then some .float else none
  else if tag = .null then if isNull s then some .null else none
  else some (.text s)

/-- The value of a scalar. A type that is left to the reader is refused, unless it cannot be
read. -/
def ofScalar? (tag : Option Tag) (s : String) (style : Style) : Option Value :=
  let untagged := if style = .plain then ofPlain? s else some (.text s)
  match tag with
  | none => untagged
  | some .unreadable => untagged
  | some (.globalTag uri) => ofTagged? (.globalTag uri) s
  | some _ => none

/-- Whether a collection with these properties has no type that is left to the reader. -/
def isUntyped (props : Properties) : Bool := (props.tag.bind Tag.localName?).isNone

/-- The value of a node in which collections are nested at most as deeply as given. -/
def ofNode : Nat → Node → Decoder Value
  | depth, node => do
    match ← node.follow, depth with
    | .scalar props s style, _ => ofScalar? props.tag s style
    | .sequence props items, depth + 1 =>
      if isUntyped props then return .sequence (← items.mapM (ofNode depth)) else failure
    | .mapping props entries, depth + 1 =>
      if isUntyped props then
        return .mapping (← entries.mapM fun (key, value) =>
          return (← ofNode depth key, ← ofNode depth value))
      else failure
    | _, _ => failure

/-- The text that a value is. -/
def text? : Value → Option String
  | .text s => some s
  | _ => none

/-- The number from 0 to `most` that a value is. -/
def natural? (most : Nat) : Value → Option Nat
  | .natural n => if n ≤ most then some n else none
  | .negated 0 => some 0
  | _ => none

/-- A value that may be nothing. -/
def optional? {α : Type} (read : Value → Option α) : Value → Option (Option α)
  | .null => some none
  | v => (read v).map some

end Value

end Ingress.Yaml
