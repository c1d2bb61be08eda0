-- Filters of log records. A filter is a list of parts between commas. A part is a level, a target,
-- or a target with a level; what decides on a record is the part with the longest target that the
-- record's own target begins with.
import Ingress.Log
import Ingress.Text.Blank

namespace Ingress

/-! ## Levels -/

/-- How much a level lets pass. -/
def Level.rank : Level → Nat
  | error => 1
  | warn => 2
  | info => 3
  | debug => 4
  | trace => 5

/-- The words of filters, with the greatest rank that each lets pass. -/
def filterWords : List (String × Nat) :=
  [("off", 0), ("error", 1), ("warn", 2), ("info", 3), ("debug", 4), ("trace", 5)]

/-- The greatest rank that a word or a number lets pass. The case of a word does not matter. -/
def filterRank? (word : List Char) : Option Nat :=
  let digits := match word with
    | '+' :: digits => digits
    | _ => word
  match Text.inBase? 10 digits with
  | some n => if n ≤ Level.trace.rank then some n else none
  | none => filterWords.lookup (String.ofList (word.map Char.toLower))

/-! ## Rules -/

/-- A rule of a filter. It decides on the records whose targets begin with a text, and if it names a
detail, only on those that have it, and lets ranks up to a greatest one pass. -/
structure FilterRule where
  target : String
  detail : Option String
  rank : Nat
deriving DecidableEq

namespace FilterRule

/-- The rule of a filter that has no others: errors pass. -/
def plain : FilterRule := ⟨"", none, Level.error.rank⟩

/-- Whether a rule decides on a record, if no closer one does. -/
def concerns (rule : FilterRule) (r : LogRecord) : Bool :=
  rule.target.toList.isPrefixOf r.target.toList && rule.detail.all r.names.contains

/-- Whether a rule is closer to the records that it decides on than another one. -/
def isCloser (a b : FilterRule) : Bool :=
  if a.target.length ≠ b.target.length then decide (b.target.length < a.target.length)
  else match a.detail, b.detail with
    | some c, some d => decide (d < c)
    | some _, none => true
    | none, _ => false

end FilterRule

/-! ## Faults -/

/-- Why a part of a filter is ignored. -/
inductive FilterFault where
  | malformed
  | unknownLevel
deriving DecidableEq

/-- The wording of a fault. -/
def FilterFault.message : FilterFault → String
  | malformed => "invalid filter directive"
  | unknownLevel =>
    "error parsing level filter: expected one of \"off\", \"error\", \"warn\", \"info\", " ++
      "\"debug\", \"trace\", or a number 0-5"

/-! ## Parts -/

namespace FilterRule

/-- Whether a part of a filter may begin with a character. Beyond ASCII every character counts as a
letter here. -/
def startsPart (c : Char) : Bool :=
  c = '[' || c = '-' || c = ':' || c = '_' || c.isAlphanum || 0x80 ≤ c.toNat

/-- The rank behind an equals sign. Nothing lets everything pass. -/
def rankBehind (word : List Char) : Except FilterFault Nat :=
  if word = [] then .ok Level.trace.rank
  else match filterRank? word with
    | some rank => .ok rank
    | none => .error .unknownLevel

/-- The rank behind brackets, where an equals sign may stand `before` characters into a part. -/
def rankAfter (part : List Char) (before : Nat) : List Char → Except FilterFault Nat
  | [] => .ok Level.trace.rank
  | '=' :: _ => rankBehind (part.drop (before + 1))
  | _ => .error .malformed

/-- The detail between braces, unless a value is asked for too. -/
def detail? (inBraces : List Char) : Option String :=
  if inBraces.contains '=' then none else some (String.ofList inBraces)

/-- Reads what stands behind a bracket that is opened `before` characters into a part. Nothing is
logged within a span, so a rule for a span, or for the value of a detail, decides on nothing. -/
def bracketed (part : List Char) (target : String) (before : Nat) (rest : List Char) :
    Except FilterFault (Option FilterRule) :=
  let span := rest.takeWhile fun c => c ≠ ']' && c ≠ '\x7b'
  match rest.drop span.length with
  | ']' :: behind => do
    let _ ← rankAfter part (before + span.length + 2) behind
    return none
  | '\x7b' :: behind =>
    let inBraces := behind.takeWhile (· ≠ '\x7d')
    let start := before + span.length + 2
    match behind.drop inBraces.length with
    | '\x7d' :: ']' :: last => do
      if inBraces = [] then throw .malformed
      let rank ← rankAfter part (start + inBraces.length + 2) last
      let detail := detail? ((part.drop start).take inBraces.length)
      return if span = [] ∧ detail.isSome then some ⟨target, detail, rank⟩ else none
    | _ => .error .malformed
  | _ => .error .malformed

/-- The rule that a part of a filter is, if it can decide on anything. Signs are looked for without
the white space around the part, but words are taken from the part as it stands, so white space in
front of it shifts them. -/
def ofPart (part : List Char) : Except FilterFault (Option FilterRule) :=
  let trimmed := Text.trim part
  let head := trimmed.takeWhile fun c => c ≠ '=' && c ≠ '['
  let target := String.ofList (part.take head.length)
  if !(trimmed.head?.any startsPart) then .error .malformed
  else match trimmed.drop head.length with
    | [] => match filterRank? part with
      | some rank => .ok (some ⟨"", none, rank⟩)
      | none => .ok (some ⟨String.ofList part, none, Level.trace.rank⟩)
    | '=' :: _ => do return some ⟨target, none, ← rankBehind (part.drop (head.length + 1))⟩
    | _ :: rest => bracketed part target head.length rest

end FilterRule

/-! ## Filters -/

/-- A filter of log records, and the parts of its text that are ignored. -/
structure Filter where
  rules : List FilterRule
  ignored : List (String × FilterFault)

namespace Filter

/-- The filter that a text describes. Parts that are read but decide on nothing keep errors from
passing on their own. -/
def ofText (s : String) : Filter :=
  let parts := ((Text.split ',' s.toList).filter (· ≠ [])).map fun part =>
    (String.ofList part, FilterRule.ofPart part)
  let readings := parts.filterMap fun (_, reading) => reading.toOption
  { rules := if readings = [] then [.plain] else readings.filterMap id
    ignored := parts.filterMap fun (part, reading) =>
      match reading with
      | .error fault => some (part, fault)
      | .ok _ => none }

/-- The rule that decides on a record: the closest one, and of several the last. -/
def rule? (f : Filter) (r : LogRecord) : Option FilterRule :=
  (f.rules.filter (·.concerns r)).foldl (fun best rule =>
    match best with
    | none => some rule
    | some other => if other.isCloser rule then some other else some rule) none

/-- Whether a record passes a filter. -/
def passes (f : Filter) (r : LogRecord) : Bool :=
  (f.rule? r).any fun rule => decide (r.level.rank ≤ rule.rank)

/-- The lines that tell which parts of a filter are ignored. -/
def faultLines (f : Filter) : List String :=
  f.ignored.flatMap fun (part, fault) =>
    printedLines ("ignoring \x60" ++ part ++ "\x60: " ++ fault.message)

/-- The lines of a filter's own faults and of the records that pass it. -/
def lines (f : Filter) (records : List LogRecord) : List String :=
  f.faultLines ++ (records.filter f.passes).flatMap fun r => printedLines r.text

end Filter

end Ingress
