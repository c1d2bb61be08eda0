-- The gaps inside scalars that go over several lines. Blanks around a line break are dropped, a
-- single line break becomes a space, and of several line breaks the first one is dropped.
import Ingress.Yaml.Glyph

namespace Ingress.Yaml

/-- A gap between two words of a scalar: the blanks of its first line, whether there is a line break
in it, the first one unless it was escaped, and the others. -/
structure Gap where
  blanks : List Char
  broken : Bool
  first : Option Char
  others : List Char

namespace Gap

/-- The gap between characters that stand side by side. -/
def empty : Gap := ⟨[], false, none, []⟩

/-- The gap behind an escaped line break. -/
def escaped : Gap := ⟨[], true, none, []⟩

/-- The gap with one more blank. -/
def addBlank (gap : Gap) (c : Char) : Gap :=
  if gap.broken then gap else { gap with blanks := gap.blanks ++ [c] }

/-- The gap with one more line break. -/
def addBreak (gap : Gap) (c : Char) : Gap :=
  if gap.broken then { gap with others := gap.others ++ [c] } else ⟨[], true, some c, []⟩

/-- The text of the line breaks of a gap, folded. -/
def fold (first : Option Char) (others : List Char) : List Char :=
  match first with
  | some '\n' => if others = [] then [' '] else others
  | _ => first.toList ++ others

/-- The text that a gap stands for. -/
def text (gap : Gap) : List Char :=
  if gap.broken then fold gap.first gap.others else gap.blanks

end Gap

/-- A scalar and what stands behind it. -/
structure Scanned where
  text : List Char
  rest : List Glyph

end Ingress.Yaml
