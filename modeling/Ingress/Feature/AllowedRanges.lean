-- The addresses that may send requests to a backend. For HTTP they are resolved on each path and
-- passed on as they are; for TCP they are read for the whole backend, and only valid ones count.
import Ingress.Address
import Ingress.Annotations

namespace Ingress.AllowedRanges

/-- The groups of paths by the ranges allowed on them. -/
def resolveHttp (a : Annotations) (paths : PathSet) :
    Logged (List (PathGroup (List String))) :=
  a.groupWith paths [Key.sourceRange] fun values =>
    Address.rangeEntries ((values.find? Key.sourceRange).getD "")

/-- The entries that are valid ranges. -/
def validRanges (s : String) : List String :=
  (Address.rangeEntries s).filter fun entry => Address.isRange entry.toList

/-- The events of entries that are no valid ranges. -/
def invalidEvents (origin : Origin) (s : String) : List Event :=
  ((Address.rangeEntries s).filter fun entry => !Address.isRange entry.toList).map
    (.invalidRange origin)

/-- The ranges allowed for the whole backend. -/
def resolveTcp (a : Annotations) : Logged (List String) := do
  let ranges ← a.read Key.sourceRange
  Logged.tellAll (invalidEvents ranges.origin ranges.value)
  return validRanges ranges.value

end Ingress.AllowedRanges
