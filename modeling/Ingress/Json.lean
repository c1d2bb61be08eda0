-- JSON values whose objects keep the order of their fields, and their text with one value on a line
-- and two blanks for each level.
import Ingress.Text.Digit

namespace Ingress

/-- A JSON value. Numbers are integers. -/
inductive Json where
  | null
  | bool (b : Bool)
  | number (n : Int)
  | string (s : String)
  | array (items : List Json)
  | object (fields : List (String × Json))

namespace Json

/-! ## Values -/

/-- A value, or null if there is none. -/
def ofOption {α : Type} (convert : α → Json) (o : Option α) : Json := (o.map convert).getD .null

/-- An array of values. -/
def ofList {α : Type} (convert : α → Json) (items : List α) : Json := .array (items.map convert)

/-! ## Text -/

/-- A character between quotes. Quotes, backslashes and control characters below U+0020 are
escaped. -/
def escapeChar (c : Char) : String :=
  if c = '"' then "\\\""
  else if c = '\\' then "\\\\"
  else if c = '\n' then "\\n"
  else if c = '\r' then "\\r"
  else if c = '\t' then "\\t"
  else if c.toNat = 0x08 then "\\b"
  else if c.toNat = 0x0C then "\\f"
  else if c.toNat < 0x10 then "\\u000" ++ Text.hexDigits c.toNat
  else if c.toNat < 0x20 then "\\u00" ++ Text.hexDigits c.toNat
  else String.singleton c

/-- A string between quotes. -/
def quote (s : String) : String := "\"" ++ String.join (s.toList.map escapeChar) ++ "\""

/-- A line feed and the blanks of a level. -/
def newLine (level : Nat) : String := "\n" ++ String.ofList (List.replicate (2 * level) ' ')

mutual

/-- The text of a value that begins on a line of some level. -/
def render (level : Nat) : Json → String
  | .null => "null"
  | .bool b => if b then "true" else "false"
  | .number n => n.repr
  | .string s => quote s
  | .array [] => "[]"
  | .array (item :: rest) =>
    "[" ++ newLine (level + 1) ++ render (level + 1) item ++ renderItems (level + 1) rest ++
      newLine level ++ "]"
  | .object [] => "\x7b\x7d"
  | .object (field :: rest) =>
    "\x7b" ++ newLine (level + 1) ++ renderField (level + 1) field ++
      renderFields (level + 1) rest ++ newLine level ++ "\x7d"

/-- The text of the items behind the first one. -/
def renderItems (level : Nat) : List Json → String
  | [] => ""
  | item :: rest => "," ++ newLine level ++ render level item ++ renderItems level rest

/-- The text of a field. -/
def renderField (level : Nat) : String × Json → String
  | (key, value) => quote key ++ ": " ++ render level value

/-- The text of the fields behind the first one. -/
def renderFields (level : Nat) : List (String × Json) → String
  | [] => ""
  | field :: rest =>
    "," ++ newLine level ++ renderField level field ++ renderFields level rest

end

/-- The text of a value. -/
def text (j : Json) : String := j.render 0

end Json

end Ingress
