-- YAML documents as trees. A text holds at most one document; a text without any, and one whose
-- document has no content, hold the empty scalar.
import Ingress.Yaml.Token

namespace Ingress.Yaml

/-- What may stand in front of a value: the number of an anchor, and a tag. -/
structure Properties where
  anchor : Option Nat
  tag : Option Tag
deriving DecidableEq

/-- Nothing in front of a value. -/
def Properties.empty : Properties := ⟨none, none⟩

/-- A value of a document. In its place there may be a reference to the value of an anchor. -/
inductive Node where
  | scalar (props : Properties) (text : String) (style : Style)
  | sequence (props : Properties) (items : List Node)
  | mapping (props : Properties) (entries : List (Node × Node))
  | reference (anchor : Nat)

namespace Node

/-! ## Reading -/

/-- The scalar that is not written. -/
def empty : Node := .scalar .empty "" .plain

/-- The tokens behind which a value is missing. -/
def isMissing (ends : List Token) : List Token → Bool
  | [] => true
  | t :: _ => ends.contains t

/-- Reads what stands in front of a value, in either order. -/
def readProperties : List Token → Properties × List Token
  | .anchor number :: .tag tag :: ts => (⟨some number, some tag⟩, ts)
  | .tag tag :: .anchor number :: ts => (⟨some number, some tag⟩, ts)
  | .anchor number :: ts => (⟨some number, none⟩, ts)
  | .tag tag :: ts => (⟨none, some tag⟩, ts)
  | ts => (.empty, ts)

/-- The scalar of a text with what stands in front of it. A lone exclamation mark says nothing
about a text. -/
def ofScalar (props : Properties) (text : String) (style : Style) : Node :=
  .scalar { props with tag := props.tag.filter (· ≠ .nonSpecific) } text style

/-- A value of which nothing is written but what stands in front of it. -/
def unwritten? (props : Properties) (ts : List Token) : Option (Node × List Token) :=
  if props = .empty then none else some (.scalar props "" .plain, ts)

mutual

/-- Reads a value. Dashes may stand without a token that opens their sequence only if `dashes`. The
depth of the tree is bounded by `fuel`, and so is the number of steps. -/
def read (block dashes : Bool) : Nat → List Token → Option (Node × List Token)
  | 0, _ => none
  | fuel + 1, ts =>
    let (props, ts) := readProperties ts
    match ts with
    | .blockEntry :: _ =>
      if dashes then do
        let (items, ts) ← readDashes fuel ts
        return (.sequence props items, ts)
      else unwritten? props ts
    | .scalar text style :: ts => some (ofScalar props text style, ts)
    | .flowSequence :: ts => do
      let (items, ts) ← readFlowItems true fuel ts
      return (.sequence props items, ts)
    | .flowMapping :: ts => do
      let (entries, ts) ← readFlowEntries true fuel ts
      return (.mapping props entries, ts)
    | .blockSequence :: rest =>
      if block then do
        let (items, ts) ← readItems fuel rest
        return (.sequence props items, ts)
      else unwritten? props ts
    | .blockMapping :: rest =>
      if block then do
        let (entries, ts) ← readEntries fuel rest
        return (.mapping props entries, ts)
      else unwritten? props ts
    | .reference number :: rest =>
      if props = .empty then some (.reference number, rest) else unwritten? props ts
    | _ => unwritten? props ts

/-- Reads a value unless one of some tokens shows that it is missing. -/
def readUnless (block dashes : Bool) (ends : List Token) :
    Nat → List Token → Option (Node × List Token)
  | 0, _ => none
  | fuel + 1, ts => if isMissing ends ts then some (empty, ts) else read block dashes fuel ts

/-- Reads the items of a block sequence. -/
def readItems : Nat → List Token → Option (List Node × List Token)
  | 0, _ => none
  | fuel + 1, ts =>
    match ts with
    | .blockEntry :: ts => do
      let (item, ts) ← readUnless true false [.blockEntry, .blockEnd] fuel ts
      let (items, ts) ← readItems fuel ts
      return (item :: items, ts)
    | .blockEnd :: ts => some ([], ts)
    | _ => none

/-- Reads the items of a block sequence that is not indented more deeply than its key. -/
def readDashes : Nat → List Token → Option (List Node × List Token)
  | 0, _ => none
  | fuel + 1, ts =>
    match ts with
    | .blockEntry :: ts => do
      let (item, ts) ← readUnless true false [.blockEntry, .key, .value, .blockEnd] fuel ts
      let (items, ts) ← readDashes fuel ts
      return (item :: items, ts)
    | _ => some ([], ts)

/-- Reads the entries of a block mapping. -/
def readEntries : Nat → List Token → Option (List (Node × Node) × List Token)
  | 0, _ => none
  | fuel + 1, ts =>
    match ts with
    | .key :: ts => do
      let (key, ts) ← readUnless true true [.key, .value, .blockEnd] fuel ts
      let (value, ts) ← match ts with
        | .value :: ts => readUnless true true [.key, .value, .blockEnd] fuel ts
        | _ => some (empty, ts)
      let (entries, ts) ← readEntries fuel ts
      return ((key, value) :: entries, ts)
    | .blockEnd :: ts => some ([], ts)
    | _ => none

/-- Reads the items of a sequence in brackets. An item may be a mapping of one entry. -/
def readFlowItems (isFirst : Bool) : Nat → List Token → Option (List Node × List Token)
  | 0, _ => none
  | fuel + 1, ts =>
    match ts with
    | .flowSequenceEnd :: ts => some ([], ts)
    | _ => do
      let ts ← match ts with
        | .flowEntry :: rest => if isFirst then some ts else some rest
        | _ => if isFirst then some ts else none
      match ts with
      | .flowSequenceEnd :: ts => return ([], ts)
      | .key :: ts => do
        let (entry, ts) ← readPair fuel ts
        let (items, ts) ← readFlowItems false fuel ts
        return (.mapping .empty [entry] :: items, ts)
      | _ => do
        let (item, ts) ← read false false fuel ts
        let (items, ts) ← readFlowItems false fuel ts
        return (item :: items, ts)

/-- Reads the entry of a mapping that is an item of a sequence in brackets. A token in place of its
key is dropped. -/
def readPair : Nat → List Token → Option ((Node × Node) × List Token)
  | 0, _ => none
  | fuel + 1, ts => do
    let (key, ts) ←
      if isMissing [.value, .flowEntry, .flowSequenceEnd] ts then some (empty, ts.drop 1)
      else read false false fuel ts
    let (value, ts) ← match ts with
      | .value :: ts => readUnless false false [.flowEntry, .flowSequenceEnd] fuel ts
      | _ => some (empty, ts)
    return ((key, value), ts)

/-- Reads the entries of a mapping in brackets. An entry may be a key alone. -/
def readFlowEntries (isFirst : Bool) :
    Nat → List Token → Option (List (Node × Node) × List Token)
  | 0, _ => none
  | fuel + 1, ts =>
    match ts with
    | .flowMappingEnd :: ts => some ([], ts)
    | _ => do
      let ts ← match ts with
        | .flowEntry :: rest => if isFirst then some ts else some rest
        | _ => if isFirst then some ts else none
      match ts with
      | .flowMappingEnd :: ts => return ([], ts)
      | .key :: ts => do
        let (key, ts) ← readUnless false false [.value, .flowEntry, .flowMappingEnd] fuel ts
        let (value, ts) ← match ts with
          | .value :: ts => readUnless false false [.flowEntry, .flowMappingEnd] fuel ts
          | _ => some (empty, ts)
        let (entries, ts) ← readFlowEntries false fuel ts
        return ((key, value) :: entries, ts)
      | _ => do
        let (key, ts) ← read false false fuel ts
        let (entries, ts) ← readFlowEntries false fuel ts
        return ((key, empty) :: entries, ts)

end

/-! ## Documents -/

/-- Reads a document behind the mark of its start, with an amount of fuel. -/
def readContent (fuel : Nat) (ts : List Token) : Option (Node × List Token) :=
  readUnless true false [.directive, .documentStart, .documentEnd] fuel ts

/-- Reads the document of a text. Behind directives its start has to be marked. -/
def readDocument (fuel : Nat) : List Token → Option (Node × List Token)
  | [] => some (empty, [])
  | .directive :: ts =>
    match ts.dropWhile (· = .directive) with
    | .documentStart :: ts => readContent fuel ts
    | _ => none
  | .documentStart :: ts => readContent fuel ts
  | ts => read true false fuel ts

/-- The value of the only document of some tokens. -/
def ofTokens? (ts : List Token) : Option Node := do
  let (node, rest) ← readDocument (4 * ts.length + 4) ts
  if rest.all (· = .documentEnd) then return node else none

/-- The value of the only document of a text. -/
def ofText? (s : String) : Option Node := do ofTokens? (← Token.ofText? s)

end Node

end Ingress.Yaml
