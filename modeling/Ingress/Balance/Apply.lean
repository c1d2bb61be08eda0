-- A balance expression applied to the endpoints of a backend. An endpoint that gets requests joins
-- the first group that its pod belongs to and takes the weight of this group, or 0 if there is no
-- such group. A refused expression changes no weight.
import Ingress.Balance.Share
import Ingress.Logged

namespace Ingress

/-! ## Modes -/

/-- How a group's weight goes to its endpoints: to each of them in full, or shared among them. -/
inductive BalanceMode where
  | pod
  | deploy
deriving DecidableEq

/-- The mode of a name. The empty name stands for `deploy`. -/
def BalanceMode.ofName? (s : String) : Option BalanceMode :=
  if s = "pod" then some .pod else if s = "deploy" ∨ s = "" then some .deploy else none

/-- The mode of a name, which is `deploy` for a name that means none. -/
def balanceMode (origin : Origin) (name : String) : Logged BalanceMode :=
  match BalanceMode.ofName? name with
  | some mode => pure mode
  | none => do
    Logged.tell (.unsupportedBalanceMode origin name)
    return .deploy

/-! ## Weights of groups -/

/-- The weight an expression's number stands for: 0 if it is negative, the greatest weight if it is
above 255. -/
def clampWeight (weight : Int) : Nat :=
  if weight < 0 then 0 else if 255 < weight then maxWeight else weight.toNat

/-- The events of numbers that are no weights. -/
def clampEvents (origin : Origin) (groups : List BalanceGroup) : List Event :=
  groups.filterMap fun g =>
    if g.weight < 0 ∨ 255 < g.weight then
      some (.clampedWeight origin g.weight (clampWeight g.weight))
    else none

/-- The weights of the endpoints of each group, given the numbers of endpoints. -/
def groupWeights (mode : BalanceMode) (groups : List BalanceGroup) (sizes : List Nat) :
    Option (List Nat) :=
  let weights := groups.map fun g => clampWeight g.weight
  match mode with
  | .pod => some weights
  | .deploy => Share.weights (weights.zipWith Share.Group.mk sizes)

/-! ## Endpoints in groups -/

/-- The labels of the pod behind an endpoint. -/
def Endpoint.labels (e : Endpoint) (cluster : ClusterView) : Except RemovalCause (Table String) :=
  match e.targetRef with
  | none => .error .noPod
  | some targetRef =>
    match cluster.podLabels targetRef with
    | .ok labels => .ok labels
    | .error error => .error (.unknownPod error)

/-- The place of the first group that an endpoint belongs to, if it gets requests. -/
def Endpoint.group? (e : Endpoint) (cluster : ClusterView) (groups : List BalanceGroup) :
    Option Nat :=
  if e.weight = 0 then none
  else match e.labels cluster with
    | .ok labels => groups.findIdx? (·.matches labels)
    | .error _ => none

/-- The events of endpoints that get requests and have no known pod. -/
def removalEvents (origin : Origin) (cluster : ClusterView) (endpoints : List Endpoint) :
    List Event :=
  endpoints.filterMap fun e =>
    if e.weight = 0 then none
    else match e.labels cluster with
      | .ok _ => none
      | .error cause => some (.removedEndpoint e origin cause)

/-- The number of endpoints in each group. -/
def groupSizes (cluster : ClusterView) (groups : List BalanceGroup) (endpoints : List Endpoint) :
    List Nat :=
  let joined := endpoints.map fun e => e.group? cluster groups
  (List.range groups.length).map fun i => joined.count (some i)

/-- The events of groups without endpoints. -/
def unmatchedEvents (origin : Origin) (groups : List BalanceGroup) (sizes : List Nat) :
    List Event :=
  ((groups.zip sizes).filter (·.2 = 0)).map fun (g, _) => .unmatchedGroup g origin

/-- The endpoint with the weight of its group, unless it gets no requests anyway. -/
def Endpoint.reweigh (e : Endpoint) (cluster : ClusterView) (groups : List BalanceGroup)
    (weights : List Nat) : Endpoint :=
  if e.weight = 0 then e
  else { e with weight := ((e.group? cluster groups).bind (weights[·]?)).getD 0 }

/-! ## The balance -/

/-- The endpoints under a balance expression and the name of a mode. -/
def balance (endpoints : List Endpoint) (expression mode : String) (cluster : ClusterView)
    (origin : Origin) : Logged (List Endpoint) :=
  if expression = "" then pure endpoints
  else match readBalance expression with
    | .error error => do
      Logged.tell (.rejectedBalance origin error)
      return endpoints
    | .ok groups => do
      Logged.tellAll (clampEvents origin groups)
      let mode ← balanceMode origin mode
      Logged.tellAll (removalEvents origin cluster endpoints)
      let sizes := groupSizes cluster groups endpoints
      Logged.tellAll (unmatchedEvents origin groups sizes)
      match groupWeights mode groups sizes with
      | none => do
        Logged.tell (.rejectedBalance origin .overflow)
        return endpoints
      | some weights => return endpoints.map (·.reweigh cluster groups weights)

end Ingress
