-- The targets to which the paths of requests are rewritten, resolved on each path. A target with
-- white space or quotes would break the configuration of the proxy and is emptied.
import Ingress.Annotations
import Ingress.Text.Blank

namespace Ingress.RewriteTarget

/-- Whether a target may stand in the configuration of the proxy. -/
def isSafe (target : String) : Bool :=
  target.toList.all fun c => !(Text.isBlank c || c = '"' || c = '\'')

/-- The group with its target emptied unless it is safe. -/
def sanitize (group : PathGroup String) : PathGroup String :=
  if isSafe group.config then group else { group with config := "" }

/-- The events of groups whose targets are not safe. -/
def unsafeEvents (id : BackendId) (groups : List (PathGroup String)) : List Event :=
  (groups.filter fun g => !isSafe g.config).map fun g => .unsafeRewriteTarget id g.config

/-- The groups of paths by their targets. -/
def resolve (a : Annotations) (id : BackendId) (paths : PathSet) :
    Logged (List (PathGroup String)) := do
  let groups ← a.group paths Key.rewriteTarget
  Logged.tellAll (unsafeEvents id groups)
  return groups.map sanitize

end Ingress.RewriteTarget
