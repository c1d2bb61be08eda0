-- Directives: lines before a document that begin with a percent sign. They give the version of YAML
-- and say what the handles of tags stand for.
import Ingress.Yaml.Tag

namespace Ingress.Yaml

/-- What a directive says. -/
inductive Directive where
  | version
  | handle (name : String) (uri : List UInt8)

namespace Directive

/-- How many digits a number of a version may have. -/
def maxDigits : Nat := 9

/-- Reads a number of a version. -/
def number? (gs : List Glyph) : Option (Nat × List Glyph) :=
  let (digits, rest) := gs.span fun g => g.char.isDigit
  if digits.length ≤ maxDigits then
    (Text.inBase? 10 (digits.map (·.char))).map fun n => (n, rest)
  else none

/-- Reads a version, which has to be 1.1 or 1.2. -/
def version? (gs : List Glyph) : Option (Directive × List Glyph) := do
  let (major, rest) ← number? gs
  let (minor, rest) ← if atChar '.' rest then number? (rest.drop 1) else none
  if major = 1 ∧ (minor = 1 ∨ minor = 2) then return (.version, rest) else none

/-- Reads a handle and what it stands for. -/
def handle? (gs : List Glyph) : Option (Directive × List Glyph) := do
  let (name, behind) ← if atChar '!' gs then some (Tag.handle (gs.drop 1)) else none
  let (uri, rest) ← Tag.writtenUri? true (skipBlanks behind)
  if (behind.head?.any fun g => isBlank g.char) && atGap rest then return (.handle name uri, rest)
  else none

/-- Reads a directive behind its percent sign, with its line. -/
def read? (gs : List Glyph) : Option (Directive × List Glyph) := do
  let (name, behind) := gs.span fun g => isWordChar g.char
  let (directive, rest) ←
    if !atGap behind then none
    else if textOf name = "YAML" then version? (skipBlanks behind)
    else if textOf name = "TAG" then handle? (skipBlanks behind)
    else none
  return (directive, ← nextLine? rest)

end Directive

end Ingress.Yaml
