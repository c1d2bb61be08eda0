-- References inside a document. A reference stands for the value of its anchor, wherever that is,
-- and following references is bounded, because a short document can stand for a very long one and
-- even for an endless one.
import Ingress.Yaml.Node

namespace Ingress.Yaml

/-! ## The parts of a document -/

namespace Node

mutual

/-- A value and the values in it, as they follow each other in the text, before others. -/
def partsBefore (others : List Node) : Node → List Node
  | .sequence props items => .sequence props items :: itemPartsBefore others items
  | .mapping props entries => .mapping props entries :: entryPartsBefore others entries
  | node => node :: others
termination_by structural node => node

/-- The parts of several values before others. -/
def itemPartsBefore (others : List Node) : List Node → List Node
  | [] => others
  | node :: rest => partsBefore (itemPartsBefore others rest) node
termination_by structural items => items

/-- The parts of a key and its value before others. -/
def pairPartsBefore (others : List Node) : Node × Node → List Node
  | (key, value) => partsBefore (partsBefore others value) key
termination_by structural pair => pair

/-- The parts of the entries of a mapping before others. -/
def entryPartsBefore (others : List Node) : List (Node × Node) → List Node
  | [] => others
  | entry :: rest => pairPartsBefore (entryPartsBefore others rest) entry
termination_by structural entries => entries

end

/-- A value and the values in it, as they follow each other in the text. -/
def parts (node : Node) : List Node := partsBefore [] node

/-- The number of the anchor in front of a value. -/
def anchor? : Node → Option Nat
  | .scalar props .. => props.anchor
  | .sequence props _ => props.anchor
  | .mapping props _ => props.anchor
  | .reference _ => none

/-- The values of the anchors in a value, the last one first. -/
def anchored (node : Node) : List (Nat × Node) :=
  (node.parts.filterMap fun part => part.anchor?.map fun number => (number, part)).reverse

/-- How many marks a value makes in a text, apart from those in it: collections have an end. -/
def marks : Node → Nat
  | .sequence .. => 2
  | .mapping .. => 2
  | _ => 1

/-- How many references may be followed for each mark of a document. -/
def referencesPerMark : Nat := 100

/-- How many references may be followed while a document is read. -/
def allowance (node : Node) : Nat :=
  referencesPerMark * node.parts.foldl (fun n part => n + part.marks) 0

end Node

/-! ## Decoders -/

/-- A decoder of parts of a document, given the values of its anchors. It counts down how many
references it may still follow, and it may fail. -/
abbrev Decoder := ReaderT (List (Nat × Node)) (StateT Nat Option)

/-- What a decoder makes of a document. -/
def Decoder.of? {α : Type} (decode : Node → Decoder α) (document : Node) : Option α :=
  (((decode document).run document.anchored).run document.allowance).map (·.1)

/-- The value that a node is or refers to. -/
def Node.follow : Node → Decoder Node
  | .reference number => do
    match ← get, (← readThe (List (Nat × Node))).lookup number with
    | left + 1, some node => do
      set left
      return node
    | _, _ => failure
  | node => return node

end Ingress.Yaml
