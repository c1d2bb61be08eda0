-- Block scalars: indented lines behind a bar, kept as they are, or behind a greater-than sign,
-- folded into paragraphs.
import Ingress.Text.Digit
import Ingress.Yaml.Folding

namespace Ingress.Yaml

/-! ## The header -/

/-- What becomes of the line breaks at the end. -/
inductive Chomp where
  | strip
  | clip
  | keep

/-- The character for a way of chomping. -/
def chomp? (c : Char) : Option Chomp :=
  if c = '+' then some .keep else if c = '-' then some .strip else none

/-- The header of a block scalar: the chomping, the depth of indentation if it is given, and what
stands behind them. -/
structure BlockHeader where
  chomp : Chomp
  depth : Option Nat
  rest : List Glyph

/-- Reads a depth of indentation, if there is one. Zero is refused. -/
def blockDepth? (gs : List Glyph) : Option (Option Nat × List Glyph) :=
  match gs with
  | [] => some (none, [])
  | g :: rest =>
    match Text.digit? g.char with
    | none => some (none, gs)
    | some 0 => none
    | some n => some (some n, rest)

/-- Reads a way of chomping, if there is one. -/
def blockChomp? : List Glyph → Option Chomp × List Glyph
  | [] => (none, [])
  | g :: rest =>
    match chomp? g.char with
    | none => (none, g :: rest)
    | some chomp => (some chomp, rest)

/-- Reads the header behind the bar or the greater-than sign, with its line break. -/
def blockHeader? (gs : List Glyph) : Option BlockHeader := do
  let (before, gs) := blockChomp? gs
  let (depth, gs) ← blockDepth? gs
  let (after, gs) := if before.isSome || depth.isNone then (none, gs) else blockChomp? gs
  return ⟨(before <|> after).getD .clip, depth, ← nextLine? gs⟩

/-! ## Lines -/

/-- The empty lines before a line of a block scalar: their breaks, the deepest indentation among
them and the line, and the line. -/
structure EmptyLines where
  breaks : List Char
  deepest : Nat
  rest : List Glyph

/-- Reads empty lines and the indentation of the line behind them. No depth is given before the
first line, unless the header gives it. A tab must not stand in the indentation. -/
def emptyLines (depth : Option Nat) (breaks : List Char) (deepest : Nat) :
    List Glyph → Option EmptyLines
  | [] => some ⟨breaks, deepest, []⟩
  | g :: rest =>
    let indenting := depth.all fun d => decide (g.column < d)
    if indenting && g.char = ' ' then emptyLines depth breaks (max deepest (g.column + 1)) rest
    else if indenting && g.char = '\t' then none
    else if isBreak g.char then
      emptyLines depth (breaks ++ [g.char]) (max deepest g.column) rest
    else some ⟨breaks, max deepest g.column, g :: rest⟩

/-- What has been read of a block scalar: the text up to the last line that is not empty, in
reverse, the break of this line, the breaks of the empty lines behind it, and whether it began
with a blank. -/
structure BlockText where
  text : List Char
  lineBreak : Option Char
  breaks : List Char
  blankStart : Bool

namespace BlockText

/-- The text with the breaks before a line, which are folded between two lines that do not begin
with blanks. -/
def close (b : BlockText) (folded blankStart : Bool) : List Char :=
  let breaks :=
    if folded && b.lineBreak = some '\n' && !b.blankStart && !blankStart then
      if b.breaks = [] then [' '] else b.breaks
    else b.lineBreak.toList ++ b.breaks
  breaks.reverse ++ b.text

/-- The whole text. -/
def finish (b : BlockText) (chomp : Chomp) : List Char :=
  match chomp with
  | .strip => b.text.reverse
  | .clip => b.text.reverse ++ b.lineBreak.toList
  | .keep => b.text.reverse ++ b.lineBreak.toList ++ b.breaks

end BlockText

/-- Reads the lines of a block scalar that are indented by `depth`, at most `fuel` of them. -/
def blockLines (folded : Bool) (depth : Nat) : Nat → BlockText → List Glyph →
    Option (BlockText × List Glyph)
  | 0, _, _ => none
  | _ + 1, b, [] => some (b, [])
  | fuel + 1, b, g :: rest =>
    if g.column ≠ depth then some (b, g :: rest)
    else do
      let (line, behind) := (g :: rest).span fun h => !isBreak h.char
      let blankStart := isBlank g.char
      let text := (line.map (·.char)).reverse ++ b.close folded blankStart
      match behind with
      | [] => return (⟨text, none, [], blankStart⟩, [])
      | h :: behind =>
        let empties ← emptyLines (some depth) [] 0 behind
        blockLines folded depth fuel ⟨text, some h.char, empties.breaks, blankStart⟩ empties.rest

/-- Reads a block scalar behind its bar or greater-than sign, in something that is indented by
`indent`, if it is indented at all. -/
def blockScalar (folded : Bool) (indent : Option Nat) (gs : List Glyph) : Option Scanned := do
  let header ← blockHeader? gs
  let given := header.depth.map (· + indent.getD 0)
  let empties ← emptyLines given [] 0 header.rest
  let least := (indent.map (· + 1)).getD 1
  let depth := given.getD (max empties.deepest (max least 1))
  let (b, rest) ← blockLines folded depth (gs.length + 1) ⟨[], none, empties.breaks, false⟩
    empties.rest
  return ⟨b.finish header.chomp, rest⟩

end Ingress.Yaml
