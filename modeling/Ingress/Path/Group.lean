-- The partition of a backend's paths by the values resolved on them. Every path is resolved once,
-- in the order of the paths, and the groups stand in the order of their first paths.
import Ingress.Path.Set

namespace Ingress

/-- A value and the paths that share it. -/
structure PathGroup (α : Type) where
  paths : PathSet
  config : α
deriving DecidableEq

/-- Puts a path with a value into the group of this value, or into a new group behind the others. -/
def addToGroups {α : Type} [DecidableEq α] (p : RoutePath) (value : α) :
    List (PathGroup α) → List (PathGroup α)
  | [] => [⟨PathSet.empty.add p, value⟩]
  | group :: rest =>
    if group.config = value then { group with paths := group.paths.add p } :: rest
    else group :: addToGroups p value rest

/-- The groups of paths by the values that stand beside them. -/
def groupsOf {α : Type} [DecidableEq α] (resolved : List (RoutePath × α)) : List (PathGroup α) :=
  resolved.foldl (fun groups (p, value) => addToGroups p value groups) []

/-- The groups of paths by the values that `resolve` finds on them. -/
def PathSet.groupBy {m : Type → Type} [Monad m] {α : Type} [DecidableEq α] (s : PathSet)
    (resolve : RoutePath → m α) : m (List (PathGroup α)) := do
  let resolved ← s.toList.mapM fun p => do return (p, ← resolve p)
  return groupsOf resolved

end Ingress
