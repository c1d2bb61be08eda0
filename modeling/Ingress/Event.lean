-- The events of an update: what was ignored, replaced or refused, on whose account, and which
-- counter grows with it. Levels, wordings and counters are decided here and nowhere else.
import Ingress.Backend
import Ingress.Balance.Expression
import Ingress.Cluster
import Ingress.Credentials
import Ingress.ResourceId
import Ingress.Settings

namespace Ingress

/-! ## Levels and counters -/

/-- The severity of an event. -/
inductive Level where
  | error
  | warn
  | info
  | debug
  | trace
deriving DecidableEq

/-- A level as log lines name it. -/
def Level.name : Level → String
  | .error => "ERROR"
  | .warn => "WARN"
  | .info => "INFO"
  | .debug => "DEBUG"
  | .trace => "TRACE"

/-- The counters of the program. -/
inductive Metric where
  | conflict
  | invalidValue
  | rejectedFeature
  | removedEndpoint
  | rejectedBalance
deriving DecidableEq

namespace Metric

/-- Every counter. -/
def all : List Metric :=
  [conflict, invalidValue, rejectedFeature, removedEndpoint, rejectedBalance]

/-- A counter as reports name it. -/
def name : Metric → String
  | conflict => "annotations.conflict"
  | invalidValue => "annotations.invalid_value"
  | rejectedFeature => "annotations.builder.rejected"
  | removedEndpoint => "bluegreen.endpoint.removed"
  | rejectedBalance => "bluegreen.expression.rejected"

/-- What a counter counts. -/
def description : Metric → String
  | conflict =>
    "Queries of an annotation declared with distinct values by distinct resources"
  | invalidValue => "Annotation values rejected by a validator and replaced by the default"
  | rejectedFeature =>
    "Features disabled because of an unsupported or unusable annotation"
  | removedEndpoint =>
    "Endpoints removed from blue/green balance because their pod could not be resolved"
  | rejectedBalance => "Blue/green balance expressions rejected as a whole"

end Metric

/-- A counter that an event makes grow by one, with the name and value of its label if it has
one. -/
structure Count where
  metric : Metric
  label : Option (String × String)
deriving DecidableEq

/-- A counter and its label as reports name them. -/
def Count.text (c : Count) : String :=
  match c.label with
  | none => c.metric.name
  | some (label, value) => c.metric.name ++ "\x7b" ++ label ++ "=" ++ value ++ "\x7d"

/-! ## Events -/

/-- A feature of a backend that is disabled as a whole if its annotations cannot be used. -/
inductive Feature where
  | affinity
  | basicAuth
  | oauth
  | waf
deriving DecidableEq

/-- A feature as the counter of rejections names it. -/
def Feature.name : Feature → String
  | .affinity => "affinity"
  | .basicAuth => "auth-http"
  | .oauth => "oauth"
  | .waf => "waf"

/-- Why an endpoint is taken out of a balance. -/
inductive RemovalCause where
  | noPod
  | unknownPod (error : LookupError)
deriving DecidableEq

/-- The wording of a removal. -/
def RemovalCause.message : RemovalCause → String
  | .noPod => "endpoint does not reference a pod"
  | .unknownPod error => error.message

/-- Something that an update has to tell. -/
inductive Event where
  | updating (id : BackendId) (paths : Nat)
  | conflict (keyPrefix key : String) (source : ResourceId) (scope : String)
      (others : List ResourceId)
  | invalidValue (key : String) (kind : ValueKind) (source : ResourceId) (value : String)
  | unsupportedAffinity (origin : Origin) (value : String)
  | unknownCookieStrategy (origin : Origin) (value : String)
  | unsupportedAuth (origin : Origin) (value : String)
  | missingAuthSecret (origin : Origin)
  | unreadableAuthSecret (origin : Origin) (error : LookupError)
  | malformedUser (secret : String) (origin : Origin) (fault : LineFault)
  | emptyUserlist (origin : Origin)
  | quotedRealm (origin : Origin)
  | rejectedBalance (origin : Origin) (error : BalanceError)
  | clampedWeight (origin : Origin) (weight : Int) (used : Nat)
  | unsupportedBalanceMode (origin : Origin) (mode : String)
  | removedEndpoint (endpoint : Endpoint) (origin : Origin) (cause : RemovalCause)
  | unmatchedGroup (group : BalanceGroup) (origin : Origin)
  | unsupportedOAuth (origin : Origin) (value : String)
  | unknownOAuthPath (path ns : String)
  | invalidHeader (origin : Origin) (entry : String)
  | unsafeRewriteTarget (id : BackendId) (target : String)
  | unsupportedWaf (origin : Origin) (value : String)
  | invalidRange (origin : Origin) (entry : String)
deriving DecidableEq

namespace Event

/-- The severity of an event. -/
def level : Event → Level
  | updating .. => .debug
  | unmatchedGroup .. => .debug
  | unsupportedAffinity .. => .error
  | unsupportedAuth .. => .error
  | missingAuthSecret .. => .error
  | unreadableAuthSecret .. => .error
  | rejectedBalance .. => .error
  | unknownOAuthPath .. => .error
  | _ => .warn

/-- The wording of an event. -/
def message : Event → String
  | updating .. => "updating backend"
  | conflict keyPrefix key source scope others =>
    "annotation '" ++ keyPrefix ++ key ++ "' from " ++ source.text ++ " (path '" ++ scope ++
      "') overrides the same annotation with distinct value from [" ++
      ", ".intercalate (others.map (·.text)) ++ "]"
  | invalidValue _ kind source value =>
    "ignoring invalid " ++ kind.name ++ " expression on " ++ source.text ++ ": " ++ value
  | unsupportedAffinity origin value =>
    "unsupported affinity type on " ++ origin.text ++ ": " ++ value
  | unknownCookieStrategy origin value =>
    "invalid affinity cookie strategy '" ++ value ++ "' on " ++ origin.text ++
      ", using 'insert' instead"
  | unsupportedAuth origin value =>
    "unsupported authentication type on " ++ origin.text ++ ": " ++ value
  | missingAuthSecret origin =>
    "missing secret name on basic authentication on " ++ origin.text
  | unreadableAuthSecret origin error =>
    "error reading basic authentication on " ++ origin.text ++ ": " ++ error.message
  | malformedUser secret origin fault =>
    "ignoring malformed usr/passwd on secret '" ++ secret ++ "', declared on " ++ origin.text ++
      ": " ++ fault.message
  | emptyUserlist origin =>
    "userlist on " ++ origin.text ++ " for basic authentication is empty"
  | quotedRealm origin => "ignoring auth-realm with quotes on " ++ origin.text
  | rejectedBalance origin error =>
    "blue/green config on " ++ origin.text ++ " has an " ++ error.message
  | clampedWeight origin weight used =>
    "invalid weight '" ++ weight.repr ++ "' on " ++ origin.text ++ ", using '" ++ used.repr ++
      "' instead"
  | unsupportedBalanceMode origin mode =>
    "unsupported blue/green mode '" ++ mode ++ "' on " ++ origin.text ++
      ", falling back to 'deploy'"
  | removedEndpoint endpoint origin cause =>
    "endpoint '" ++ endpoint.address ++ "' on " ++ origin.text ++
      " was removed from balance: " ++ cause.message
  | unmatchedGroup group origin =>
    "blue/green balance label '" ++ group.label ++ "=" ++ group.value ++ "' on " ++
      origin.text ++ " does not reference any endpoint"
  | unsupportedOAuth origin value =>
    "ignoring invalid oauth implementation '" ++ value ++ "' on " ++ origin.text
  | unknownOAuthPath path ns =>
    "path '" ++ path ++ "' was not found on namespace '" ++ ns ++ "'"
  | invalidHeader origin entry =>
    "invalid header format '" ++ entry ++ "' on " ++ origin.text
  | unsafeRewriteTarget id target =>
    "rewrite-target does not allow white spaces or single/double quotes on backend '" ++
      id.service ++ "': " ++ target
  | unsupportedWaf origin value =>
    "ignoring invalid WAF mode on " ++ origin.text ++ ": " ++ value
  | invalidRange origin entry =>
    "skipping invalid cidr '" ++ entry ++ "' in whitelist config on " ++ origin.text

/-- What an event tells beside its wording, as names and values. -/
def details : Event → List (String × String)
  | updating id paths => [("backend", id.text), ("paths", paths.repr)]
  | _ => []

/-- The feature that is disabled with an event. -/
def rejected? : Event → Option Feature
  | unsupportedAffinity .. => some .affinity
  | unsupportedAuth .. => some .basicAuth
  | missingAuthSecret .. => some .basicAuth
  | unreadableAuthSecret .. => some .basicAuth
  | unsupportedOAuth .. => some .oauth
  | unknownOAuthPath .. => some .oauth
  | unsupportedWaf .. => some .waf
  | _ => none

/-- The counter that grows with an event. It is read off the event and never kept beside it, so in
every list of events, however it came about, what is told and what is counted go together. -/
def count? : Event → Option Count
  | conflict _ key .. => some ⟨.conflict, some ("annotation", key)⟩
  | invalidValue key .. => some ⟨.invalidValue, some ("annotation", key)⟩
  | removedEndpoint .. => some ⟨.removedEndpoint, none⟩
  | rejectedBalance .. => some ⟨.rejectedBalance, none⟩
  | event => event.rejected?.map fun f => ⟨.rejectedFeature, some ("builder", f.name)⟩

end Event

/-- How much each counter grew over some events, in the order of their first events. -/
def counts (events : List Event) : List (Count × Nat) :=
  let grown := events.filterMap (·.count?)
  grown.eraseDups.map fun c => (c, grown.count c)

end Ingress
