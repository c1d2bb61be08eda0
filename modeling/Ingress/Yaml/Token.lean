-- The tokens of a YAML text. Indentation is turned into tokens that open and close block
-- collections, and a key is marked as such once the colon behind it is found. Tags are expanded,
-- and anchors and references to them have numbers in place of names.
import Ingress.Yaml.Block
import Ingress.Yaml.Directive
import Ingress.Yaml.Plain
import Ingress.Yaml.Quoted

namespace Ingress.Yaml

/-- How a scalar is written: without quotes, between quotes, or in lines that are kept or folded. -/
inductive Style where
  | plain
  | quoted
  | literal
  | folded
deriving DecidableEq

/-- A token of a YAML text. -/
inductive Token where
  | directive
  | documentStart
  | documentEnd
  | blockSequence
  | blockMapping
  | blockEnd
  | flowSequence
  | flowSequenceEnd
  | flowMapping
  | flowMappingEnd
  | blockEntry
  | flowEntry
  | key
  | value
  | anchor (number : Nat)
  | reference (number : Nat)
  | tag (tag : Tag)
  | scalar (text : String) (style : Style)
deriving DecidableEq

namespace Token

/-! ## Names -/

/-- What a text has said so far: whether it gave its version, what handles stand for, and which
numbers the names of anchors have. -/
structure Names where
  versioned : Bool
  handles : Tag.Handles
  anchors : List (String × Nat)

namespace Names

/-- Nothing has been said. -/
def empty : Names := ⟨false, [], []⟩

/-- The names behind a directive. Nothing may be said twice. -/
def direct (n : Names) : Directive → Option Names
  | .version => if n.versioned then none else some { n with versioned := true }
  | .handle name uri =>
    if n.handles.any (·.1 = name) then none
    else some { n with handles := (name, uri) :: n.handles }

/-- The number of an anchor: how many different names there are before it. A name that is used again
gets such a number too, which the next new name shares. -/
def nextNumber (n : Names) : Nat := n.anchors.length

/-- The names behind an anchor. -/
def addAnchor (n : Names) (name : String) : Names :=
  { n with anchors := (name, n.nextNumber) :: n.anchors.filter (·.1 ≠ name) }

end Names

/-! ## The state of a scan -/

/-- A place where a key may have begun: the number of tokens before it, the glyph there, and whether
a colon has to follow because nothing but a key can stand there. -/
structure KeyStart where
  place : Nat
  start : Glyph
  required : Bool

/-- What has been scanned and what is left. There is a place for a key for each open bracket, and
one outside all of them. Block collections have no depth outside all of them. -/
structure Scan where
  rest : List Glyph
  tokens : Array Token
  depth : Option Nat
  outerDepths : List (Option Nat)
  keyStart : Option KeyStart
  outerKeyStarts : List (Option KeyStart)
  keyAllowed : Bool
  names : Names

namespace Scan

/-- Before anything has been scanned. -/
def start (gs : List Glyph) : Scan := ⟨gs, #[], none, [], none, [], true, .empty⟩

/-- Whether a bracket is open. -/
def inFlow (s : Scan) : Bool := s.outerKeyStarts ≠ []

/-- The scan with one more token. -/
def push (s : Scan) (t : Token) : Scan := { s with tokens := s.tokens.push t }

/-- The scan with a token put before the token at a place. -/
def insert (s : Scan) (place : Nat) (t : Token) : Scan :=
  { s with tokens := s.tokens.insertIdxIfInBounds place t }

/-- The scan behind `n` glyphs. -/
def skip (s : Scan) (n : Nat) : Scan := { s with rest := s.rest.drop n }

/-- The scan with leave, or without leave, for a key to begin at what comes next. -/
def allowKey (s : Scan) (allowed : Bool) : Scan := { s with keyAllowed := allowed }

/-! ## Keys -/

/-- The scan without the place of a key in the innermost bracket, unless a colon is required. -/
def dropKey (s : Scan) : Option Scan :=
  match s.keyStart with
  | some begun => if begun.required then none else some { s with keyStart := none }
  | none => some s

/-- The scan with what stands ahead as a place for a key, if a key may begin there. -/
def saveKey (s : Scan) : Option Scan :=
  match s.rest with
  | [] => some s
  | g :: _ =>
    if s.keyAllowed then
      s.dropKey.map fun s =>
        let required := !s.inFlow && s.depth = some g.column
        { s with keyStart := some ⟨s.tokens.size, g, required⟩ }
    else some s

/-- How many bytes a key and the blanks behind it may take before the colon. -/
def maxKeyLength : Nat := 1024

/-- Whether a colon may still follow a place for a key: on the same line, not too far behind it. -/
def isFresh (g : Glyph) (begun : KeyStart) : Bool :=
  begun.start.line = g.line && decide (g.offset ≤ begun.start.offset + maxKeyLength)

/-- Forgets places for a key which are too far back, unless a colon is required. -/
def dropStale (g : Glyph) : Option KeyStart → Option (Option KeyStart)
  | none => some none
  | some begun =>
    if isFresh g begun then some (some begun) else if begun.required then none else some none

/-- The scan without places for a key that are too far back. -/
def dropStaleKeys (s : Scan) : Option Scan :=
  match s.rest with
  | [] => some s
  | g :: _ => do
    let keyStart ← dropStale g s.keyStart
    let outerKeyStarts ← s.outerKeyStarts.mapM (dropStale g)
    return { s with keyStart := keyStart, outerKeyStarts := outerKeyStarts }

/-! ## Indentation -/

/-- Opens a block collection at a column, with its token at a place, if the column is deeper than
the block collections around. -/
def indent (s : Scan) (column place : Nat) (t : Token) : Scan :=
  if s.inFlow || s.depth.any (column ≤ ·) then s
  else { s.insert place t with depth := some column, outerDepths := s.depth :: s.outerDepths }

/-- Closes block collections, innermost first, as long as `ends` holds of their depths. -/
def closeBlocks (ends : Nat → Bool) (tokens : Array Token) (depth : Option Nat) :
    List (Option Nat) → Array Token × Option Nat × List (Option Nat)
  | [] => (tokens, depth, [])
  | outer :: rest =>
    if depth.any ends then closeBlocks ends (tokens.push .blockEnd) outer rest
    else (tokens, depth, outer :: rest)

/-- Closes the block collections that end where `ends` holds of their depths. Brackets keep them
open. -/
def dedent (s : Scan) (ends : Nat → Bool) : Scan :=
  if s.inFlow then s
  else
    let (tokens, depth, outerDepths) := closeBlocks ends s.tokens s.depth s.outerDepths
    { s with tokens := tokens, depth := depth, outerDepths := outerDepths }

/-! ## Gaps -/

/-- Skips blanks, comments and line breaks. A tab is a blank only where no key may begin. Behind a
line break outside brackets, a key may begin. -/
def gapFrom (inFlow keyAllowed comment : Bool) : List Glyph → Bool × List Glyph
  | [] => (keyAllowed, [])
  | g :: rest =>
    if isBreak g.char then gapFrom inFlow (keyAllowed || !inFlow) false rest
    else if comment then gapFrom inFlow keyAllowed true rest
    else if g.char = ' ' || ((inFlow || !keyAllowed) && g.char = '\t') then
      gapFrom inFlow keyAllowed false rest
    else if g.char = '#' then gapFrom inFlow keyAllowed true rest
    else if g.column = 0 && g.char = '\ufeff' then gapFrom inFlow keyAllowed false rest
    else (keyAllowed, g :: rest)

/-- The scan behind blanks, comments and line breaks. -/
def skipGap (s : Scan) : Scan :=
  let (keyAllowed, rest) := gapFrom s.inFlow s.keyAllowed false s.rest
  { s with rest := rest, keyAllowed := keyAllowed }

/-! ## Tokens -/

/-- A mark of the start or the end of a document, which closes all block collections. -/
def documentMark (s : Scan) (t : Token) : Option Scan :=
  (s.dedent fun _ => true).dropKey.map fun s => ((s.allowKey false).skip 3).push t

/-- An opening bracket, which may begin a key as a whole. -/
def openFlow (s : Scan) (t : Token) : Option Scan :=
  s.saveKey.map fun s =>
    (({ s with keyStart := none, outerKeyStarts := s.keyStart :: s.outerKeyStarts }.allowKey
      true).skip 1).push t

/-- A closing bracket. -/
def closeFlow (s : Scan) (t : Token) : Option Scan :=
  s.dropKey.map fun s =>
    let s := match s.outerKeyStarts with
      | [] => s
      | outer :: rest => { s with keyStart := outer, outerKeyStarts := rest }
    ((s.allowKey false).skip 1).push t

/-- A comma between brackets. -/
def flowEntry (s : Scan) : Option Scan :=
  s.dropKey.map fun s => ((s.allowKey true).skip 1).push .flowEntry

/-- A dash before an item. -/
def blockEntry (s : Scan) (column : Nat) : Option Scan :=
  if !s.inFlow && !s.keyAllowed then none
  else (s.indent column s.tokens.size .blockSequence).dropKey.map fun s =>
    ((s.allowKey true).skip 1).push .blockEntry

/-- A question mark before a key. -/
def explicitKey (s : Scan) (column : Nat) : Option Scan :=
  if !s.inFlow && !s.keyAllowed then none
  else (s.indent column s.tokens.size .blockMapping).dropKey.map fun s =>
    ((s.allowKey !s.inFlow).skip 1).push .key

/-- A colon before a value. If there is a place for a key, the key begins there. -/
def value (s : Scan) (column : Nat) : Option Scan :=
  match s.keyStart with
  | some begun =>
    let s := (s.insert begun.place .key).indent begun.start.column begun.place .blockMapping
    some ((({ s with keyStart := none }.allowKey false).skip 1).push .value)
  | none =>
    if !s.inFlow && !s.keyAllowed then none
    else
      let s := s.indent column s.tokens.size .blockMapping
      some (((s.allowKey !s.inFlow).skip 1).push .value)

/-- Reads the name of an anchor. -/
def anchorName? (gs : List Glyph) : Option (String × List Glyph) :=
  let (name, rest) := gs.span fun g => isWordChar g.char
  let ended := atGap rest || (rest.head?.any fun g => "?:,]\x7d%@\x60".toList.contains g.char)
  if name.isEmpty || !ended then none else some (textOf name, rest)

/-- An anchor, which may begin a key. -/
def anchor (s : Scan) : Option Scan := do
  let s ← s.saveKey
  let (name, rest) ← anchorName? (s.rest.drop 1)
  return ({ s with rest := rest, names := s.names.addAnchor name }.allowKey false).push
    (.anchor s.names.nextNumber)

/-- A reference to an anchor before it, which may be a key. -/
def reference (s : Scan) : Option Scan := do
  let s ← s.saveKey
  let (name, rest) ← anchorName? (s.rest.drop 1)
  return ({ s with rest := rest }.allowKey false).push (.reference (← s.names.anchors.lookup name))

/-- A tag, which may begin a key. -/
def tag (s : Scan) : Option Scan := do
  let s ← s.saveKey
  let (tag, rest) ← Tag.read? s.names.handles s.inFlow (s.rest.drop 1)
  return ({ s with rest := rest }.allowKey false).push (.tag tag)

/-- A directive, which closes all block collections. -/
def directive (s : Scan) : Option Scan := do
  let s ← (s.dedent fun _ => true).dropKey
  let (directive, rest) ← Directive.read? (s.rest.drop 1)
  return ({ s with rest := rest, names := ← s.names.direct directive }.allowKey false).push
    .directive

/-- A scalar in lines of its own behind a bar or a greater-than sign. -/
def blockScalar (s : Scan) (folded : Bool) : Option Scan := do
  let s ← s.dropKey
  let scanned ← Yaml.blockScalar folded s.depth (s.rest.drop 1)
  return ({ s with rest := scanned.rest }.allowKey true).push
    (.scalar (String.ofList scanned.text) (if folded then .folded else .literal))

/-- A scalar between quotes, which may be a key. -/
def quoted (s : Scan) (read : List Glyph → Option Scanned) : Option Scan := do
  let s ← s.saveKey
  let scanned ← read (s.rest.drop 1)
  return ({ s with rest := scanned.rest }.allowKey false).push
    (.scalar (String.ofList scanned.text) .quoted)

/-- A scalar without quotes, which may be a key. -/
def plain (s : Scan) : Option Scan := do
  let s ← s.saveKey
  let least := (s.depth.map (· + 1)).getD 0
  let scanned ← plainFrom s.inFlow least [] .empty s.rest
  return ({ s with rest := scanned.rest }.allowKey scanned.broken).push
    (.scalar (String.ofList scanned.text) .plain)

/-! ## The scan -/

/-- Scans the token that begins with the glyph ahead. -/
def token (s : Scan) (g : Glyph) (behind : List Glyph) : Option Scan :=
  let spaced := atGap behind
  if g.column = 0 && g.char = '%' then s.directive
  else if atMark '-' s.rest then s.documentMark .documentStart
  else if atMark '.' s.rest then s.documentMark .documentEnd
  else if g.char = '[' then s.openFlow .flowSequence
  else if g.char = '{' then s.openFlow .flowMapping
  else if g.char = ']' then s.closeFlow .flowSequenceEnd
  else if g.char = '}' then s.closeFlow .flowMappingEnd
  else if g.char = ',' then s.flowEntry
  else if g.char = '-' && spaced then s.blockEntry g.column
  else if g.char = '?' && (s.inFlow || spaced) then s.explicitKey g.column
  else if g.char = ':' && (s.inFlow || spaced) then s.value g.column
  else if g.char = '*' then s.reference
  else if g.char = '&' then s.anchor
  else if g.char = '!' then s.tag
  else if g.char = '|' && !s.inFlow then s.blockScalar false
  else if g.char = '>' && !s.inFlow then s.blockScalar true
  else if g.char = '\'' then s.quoted (singleQuoted [] .empty)
  else if g.char = '"' then s.quoted (doubleQuoted [] .empty .outside)
  else if atPlain s.inFlow s.rest then s.plain
  else none

/-- Scans all tokens, in at most `fuel` steps of which each scans one. -/
def run : Nat → Scan → Option (Array Token)
  | 0, _ => none
  | fuel + 1, s => do
    let s ← s.skipGap.dropStaleKeys
    match s.rest with
    | [] => return (← (s.dedent fun _ => true).dropKey).tokens
    | g :: behind => run fuel (← (s.dedent fun depth => decide (g.column < depth)).token g behind)

end Scan

/-- The tokens of a text. -/
def ofText? (s : String) : Option (List Token) := do
  let gs ← glyphs? s
  return (← (Scan.start gs).run (gs.length + 1)).toList

end Token

end Ingress.Yaml
