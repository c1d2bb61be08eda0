-- Log records and the lines that they take.
import Ingress.Event

namespace Ingress

/-! ## Records -/

/-- Something that is logged, with the part of the program that it comes from, and details as names
and values. -/
structure LogRecord where
  level : Level
  target : String
  message : String
  details : List (String × String)
deriving DecidableEq

/-- The part of the program that an event comes from. -/
def Event.target : Event → String
  | .updating .. => "synth::snapshot"
  | .conflict .. => "annotations::mapper"
  | .invalidValue .. => "annotations::mapper"
  | .unsupportedAffinity .. => "annotations::builders::affinity"
  | .unknownCookieStrategy .. => "annotations::builders::affinity"
  | .unsupportedAuth .. => "annotations::builders::auth"
  | .missingAuthSecret .. => "annotations::builders::auth"
  | .unreadableAuthSecret .. => "annotations::builders::auth"
  | .malformedUser .. => "annotations::builders::auth"
  | .emptyUserlist .. => "annotations::builders::auth"
  | .quotedRealm .. => "annotations::builders::auth"
  | .rejectedBalance .. => "annotations::bluegreen"
  | .clampedWeight .. => "annotations::bluegreen"
  | .unsupportedBalanceMode .. => "annotations::bluegreen"
  | .removedEndpoint .. => "annotations::bluegreen"
  | .unmatchedGroup .. => "annotations::bluegreen"
  | .unsupportedOAuth .. => "annotations::builders::oauth"
  | .unknownOAuthPath .. => "annotations::builders::oauth"
  | .invalidHeader .. => "annotations::builders::oauth"
  | .unsafeRewriteTarget .. => "annotations::builders::rewrite"
  | .unsupportedWaf .. => "annotations::builders::waf"
  | .invalidRange .. => "annotations::builders::whitelist"

/-- The record of an event. -/
def Event.record (e : Event) : LogRecord := ⟨e.level, e.target, e.message, e.details⟩

namespace LogRecord

/-- The names of what a record holds beside its level and its target. -/
def names (r : LogRecord) : List String := "message" :: r.details.map (·.1)

/-! ## Lines -/

/-- A character of a message. Control characters that a terminal may obey are spelled out. -/
def showChar (c : Char) : String :=
  if c.toNat = 0x07 ∨ c.toNat = 0x08 ∨ c.toNat = 0x0C then "\\x0" ++ Text.hexDigits c.toNat
  else if c.toNat = 0x1B ∨ c.toNat = 0x7F then "\\x" ++ Text.hexDigits c.toNat
  else if 0x80 ≤ c.toNat ∧ c.toNat ≤ 0x9F then "\\u\x7b" ++ Text.hexDigits c.toNat ++ "\x7d"
  else String.singleton c

/-- The text of a record: its level, its message and its details. -/
def text (r : LogRecord) : String :=
  r.level.name ++ " " ++ String.join (r.message.toList.map showChar) ++
    String.join (r.details.map fun (name, value) => " " ++ name ++ "=" ++ value)

end LogRecord

/-- The lines that a printed text takes. -/
def printedLines (s : String) : List String :=
  (Text.lines (s.toList ++ ['\n'])).map String.ofList

end Ingress
