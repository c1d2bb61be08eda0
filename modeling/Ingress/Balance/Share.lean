-- The weights that endpoints get when each group shares its weight among its endpoints. They stand
-- to each other as weight to size does, in the smallest integers, unless the greatest of these is
-- beyond 256: then all are scaled down so that it becomes 256 and none that was positive becomes 0.

namespace Ingress

/-- The greatest weight of an endpoint. -/
def maxWeight : Nat := 256

/-- A number that has to fit in 128 bits. -/
def fit128 (n : Nat) : Option Nat := if n < Nat.pow 2 128 then some n else none

namespace Share

/-- A group's weight and the number of its endpoints. -/
structure Group where
  weight : Nat
  size : Nat
deriving DecidableEq

/-- The least common multiple of the sizes that are not 0, if it fits. -/
def commonSize (groups : List Group) : Option Nat :=
  (groups.filter (0 < ·.size)).foldlM (fun l g => fit128 (l / Nat.gcd l g.size * g.size)) 1

/-- A group's weight per endpoint, in units of one over the common size. -/
def numerator (common : Nat) (g : Group) : Option Nat :=
  if g.size = 0 then some 0 else fit128 (g.weight * (common / g.size))

/-- Numbers divided by their greatest common divisor. -/
def reduce (ns : List Nat) : List Nat :=
  let divisor := ns.foldl Nat.gcd 0
  if 0 < divisor then ns.map (· / divisor) else ns

/-- A number in units in which `greatest` is the greatest weight, and at least 1 unless it is 0. -/
def rescale (greatest n : Nat) : Option Nat :=
  if n = 0 then some 0 else (fit128 (n * maxWeight)).map fun scaled => max (scaled / greatest) 1

/-- Numbers scaled down if one of them is beyond the greatest weight. -/
def limit (ns : List Nat) : Option (List Nat) :=
  let greatest := ns.foldl max 0
  if maxWeight < greatest then ns.mapM (rescale greatest) else some ns

/-- The weight of an endpoint of each group, unless a number on the way does not fit. -/
def weights (groups : List Group) : Option (List Nat) := do
  let common ← commonSize groups
  let ns ← groups.mapM (numerator common)
  let limited ← limit (reduce ns)
  limited.mapM fun n => if n < Nat.pow 2 32 then some n else none

end Share

end Ingress
