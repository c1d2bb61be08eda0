-- When a balance is refused as a whole. What it tells before is about single weights, endpoints and
-- groups, and no weight is written by then. Main statement: a balance is refused exactly if its
-- expression cannot be read or shared weights overflow, and then it tells one error, as its last
-- event, and changes nothing.
import Ingress.Proofs.Acceptance
import Ingress.Proofs.Counters

namespace Ingress

/-- The counter of refused expressions. -/
def Count.refusal : Count := ⟨.rejectedBalance, none⟩

theorem Event.IsRemark.count?_ne_refusal {e : Event} (h : e.IsRemark) :
    e.count? ≠ some .refusal := by
  rcases h with hnote | _
  · simp [hnote.count?_eq_none]
  · simp [Event.count?, Count.refusal]

variable {endpoints : List Endpoint} {expression mode : String} {cluster : ClusterView}
  {origin : Origin} {groups : List BalanceGroup}

/-! ## Shares that overflow -/

/-- An endpoint gets requests, the pod behind it is known, and the entry at place `i` is the first
one whose label and value the pod carries. -/
def Endpoint.JoinsAt (e : Endpoint) (cluster : ClusterView) (groups : List BalanceGroup) (i : Nat) :
    Prop :=
  0 < e.weight ∧ ∃ targetRef labels, e.targetRef = some targetRef ∧
    cluster.podLabels targetRef = .ok labels ∧
    groups.findIdx? (fun g => labels.find? g.label = some g.value) = some i

theorem group?_eq_some_iff {e : Endpoint} {i : Nat} :
    e.group? cluster groups = some i ↔ e.JoinsAt cluster groups i := by
  unfold Endpoint.JoinsAt Endpoint.group?
  rcases Nat.eq_zero_or_pos e.weight with h0 | hpos
  · simp [h0]
  · rw [if_neg (Nat.pos_iff_ne_zero.mp hpos)]
    cases hlabels : e.labels cluster with
    | error cause =>
      simp only [reduceCtorEq, false_iff, not_and, not_exists]
      rintro - targetRef labels htarget hpod
      rw [labels_eq_ok_iff.mpr ⟨targetRef, htarget, hpod⟩] at hlabels
      cases hlabels
    | ok labels =>
      obtain ⟨targetRef, htarget, hpod⟩ := labels_eq_ok_iff.mp hlabels
      constructor
      · intro hfind
        exact ⟨hpos, targetRef, labels, htarget, hpod, hfind⟩
      · rintro ⟨-, targetRef', labels', htarget', hpod', hfind⟩
        obtain rfl := Option.some.inj (htarget.symm.trans htarget')
        obtain rfl := Except.ok.inj (hpod.symm.trans hpod')
        exact hfind

instance (e : Endpoint) (cluster : ClusterView) (groups : List BalanceGroup) (i : Nat) :
    Decidable (e.JoinsAt cluster groups i) :=
  decidable_of_iff _ group?_eq_some_iff

/-- What each entry of an expression asks for: its weight, and a share of it for each of the
endpoints that join it. -/
def demands (cluster : ClusterView) (groups : List BalanceGroup) (endpoints : List Endpoint) :
    List Share.Group :=
  groups.mapIdx fun i g =>
    ⟨clampWeight g.weight, endpoints.countP fun e => e.JoinsAt cluster groups i⟩

theorem zipWith_groupSizes :
    (groups.map fun g => clampWeight g.weight).zipWith Share.Group.mk
      (groupSizes cluster groups endpoints) = demands cluster groups endpoints := by
  refine List.ext_getElem? fun i => ?_
  unfold demands
  rw [List.getElem?_zipWith, List.getElem?_mapIdx, List.getElem?_map]
  by_cases hi : i < groups.length
  · rw [getElem?_groupSizes hi, List.getElem?_eq_getElem hi]
    simp only [List.count_eq_countP, List.countP_map, Option.map_some, Option.some.injEq]
    congr 1
    refine List.countP_congr fun e _ => ?_
    simp [group?_eq_some_iff]
  · rw [List.getElem?_eq_none (Nat.le_of_not_lt hi)]
    rfl

theorem ofName_eq_pod_iff : BalanceMode.ofName mode = .pod ↔ mode = "pod" := by
  unfold BalanceMode.ofName BalanceMode.ofName?
  split
  · next h => simp [h]
  · next h => split <;> simp [h]

theorem groupWeights_eq_none_iff :
    groupWeights (BalanceMode.ofName mode) groups (groupSizes cluster groups endpoints) = none ↔
      mode ≠ "pod" ∧ Share.weights (demands cluster groups endpoints) = none := by
  rw [← zipWith_groupSizes, ne_eq, ← ofName_eq_pod_iff]
  cases BalanceMode.ofName mode <;> simp [groupWeights]

/-- An expression can be read, its groups share their weights, and a number on the way is beyond its
bound. -/
def SharesOverflow (endpoints : List Endpoint) (expression mode : String) (cluster : ClusterView) :
    Prop :=
  ∃ groups, readBalance expression = .ok groups ∧ mode ≠ "pod" ∧
    Share.weights (demands cluster groups endpoints) = none

/-- Why a balance is refused. -/
inductive RefusalCause (endpoints : List Endpoint) (expression mode : String)
    (cluster : ClusterView) : BalanceError → Prop where
  | unreadable {error : BalanceError} (read : readBalance expression = .error error) :
    RefusalCause endpoints expression mode cluster error
  | overflow (beyond : SharesOverflow endpoints expression mode cluster) :
    RefusalCause endpoints expression mode cluster .overflow

theorem weighing?_eq_none_iff_overflow (hread : readBalance expression = .ok groups) :
    weighing? endpoints expression mode cluster = none ↔
      SharesOverflow endpoints expression mode cluster := by
  unfold weighing? SharesOverflow
  simp only [hread, Option.map_eq_none_iff, groupWeights_eq_none_iff, Except.ok.injEq,
    exists_eq_left']

theorem weighing?_eq_none_iff :
    weighing? endpoints expression mode cluster = none ↔
      ∃ error, RefusalCause endpoints expression mode cluster error := by
  cases hread : readBalance expression with
  | error error => simpa [weighing?, hread] using ⟨error, .unreadable hread⟩
  | ok groups =>
    rw [weighing?_eq_none_iff_overflow hread]
    constructor
    · intro hbeyond
      exact ⟨.overflow, .overflow hbeyond⟩
    · rintro ⟨error, hunreadable | hbeyond⟩
      · rw [hread] at hunreadable
        cases hunreadable
      · exact hbeyond

/-! ## Refused and accepted runs -/

/-- What a refused balance leaves: one error, told last and counted once, and all endpoints as they
were. -/
structure RefusedFor (origin : Origin) (endpoints : List Endpoint) (error : BalanceError)
    (run : Logged (List Endpoint)) : Prop where
  once : errors run.events = [.rejectedBalance origin error]
  last : run.events.getLast? = some (.rejectedBalance origin error)
  counted : growth .refusal run.events = 1
  unchanged : run.value = endpoints

/-- What a balance leaves that is not refused: no error, and no refusal counted. -/
structure Unrefused (run : Logged (List Endpoint)) : Prop where
  silent : errors run.events = []
  uncounted : growth .refusal run.events = 0

theorem refusedFor_of_remarks {run : Logged (List Endpoint)} {error : BalanceError}
    {early : List Event} (hearly : ∀ e ∈ early, e.IsRemark)
    (hevents : run.events = early ++ [.rejectedBalance origin error])
    (hvalue : run.value = endpoints) : RefusedFor origin endpoints error run where
  once := by
    rw [hevents, errors_append, errors_eq_nil fun e he => (hearly e he).level_ne_error]
    rfl
  last := by rw [hevents, List.getLast?_concat]
  counted := by
    rw [hevents, growth_append, growth_eq_zero fun e he => (hearly e he).count?_ne_refusal]
    rfl
  unchanged := hvalue

theorem unrefused_of_remarks {run : Logged (List Endpoint)} (h : ∀ e ∈ run.events, e.IsRemark) :
    Unrefused run where
  silent := errors_eq_nil fun e he => (h e he).level_ne_error
  uncounted := growth_eq_zero fun e he => (h e he).count?_ne_refusal

theorem refusedFor_balance (hne : expression ≠ "") {error : BalanceError}
    (h : RefusalCause endpoints expression mode cluster error) :
    RefusedFor origin endpoints error (balance endpoints expression mode cluster origin) := by
  have hnone := weighing?_eq_none_iff.mpr ⟨error, h⟩
  have hvalue : (balance endpoints expression mode cluster origin).value = endpoints :=
    value_balance_of_refused hnone
  cases h with
  | unreadable hread =>
    have hearly : ∀ e ∈ ([] : List Event), e.IsRemark := by simp
    exact refusedFor_of_remarks hearly (events_balance_of_error hne hread) hvalue
  | overflow hbeyond =>
    obtain ⟨groups, hread, -⟩ := hbeyond
    exact refusedFor_of_remarks (fun e he => isRemark_of_mem_remarks he)
      (events_balance_of_overflow hne hread hnone) hvalue

theorem unrefused_balance (hne : expression ≠ "")
    (h : ¬∃ error, RefusalCause endpoints expression mode cluster error) :
    Unrefused (balance endpoints expression mode cluster origin) := by
  cases hread : readBalance expression with
  | error error => exact absurd ⟨error, .unreadable hread⟩ h
  | ok groups =>
    refine unrefused_of_remarks fun e he => ?_
    rw [events_balance_of_accepted hne hread (mt weighing?_eq_none_iff.mp h)] at he
    exact isRemark_of_mem_remarks he

/-! ## A crowd -/

/-- Sizes without common factors. Their least common multiple takes 113 bits. -/
def crowdSizes : List Nat :=
  [1, 9, 11, 13, 17, 19, 23, 25, 29, 31, 32, 37, 41, 43, 47, 49, 53, 59, 61, 67, 71, 73, 79]

/-- A pod for each size, with the size as its version. -/
def crowdPods : Cluster :=
  crowdSizes.foldl (fun c n => c.addPod n.repr (.ofList [("v", n.repr)])) .empty

/-- An endpoint of a version. -/
def crowdMember (n : Nat) : Endpoint := ⟨"10.0.0.1", 80, 1, some n.repr⟩

/-- An endpoint without a pod. -/
def stray : Endpoint := ⟨"10.0.0.2", 80, 1, none⟩

/-- As many endpoints of each version as its size says, and a stray one. -/
def crowd : List Endpoint :=
  crowdSizes.flatMap (fun n => List.replicate n (crowdMember n)) ++ [stray]

/-- The greatest weight that is not clamped for one endpoint, the smallest one for the others. -/
def crowdExpression : String :=
  "v=1=255,v=9=1,v=11=1,v=13=1,v=17=1,v=19=1,v=23=1,v=25=1,v=29=1,v=31=1,v=32=1,v=37=1," ++
    "v=41=1,v=43=1,v=47=1,v=49=1,v=53=1,v=59=1,v=61=1,v=67=1,v=71=1,v=73=1,v=79=1"

def crowdGroups : List BalanceGroup :=
  crowdSizes.map fun n => ⟨"v", n.repr, if n = 1 then 255 else 1⟩

theorem readBalance_crowd : readBalance crowdExpression = .ok crowdGroups := by
  unfold readBalance crowdExpression
  rw [String.toList_append, String.toList_ofList, String.toList_ofList]
  decide +kernel

theorem group?_crowdMember : ∀ n ∈ crowdSizes,
    (crowdMember n).group? crowdPods crowdGroups = some (crowdSizes.idxOf n) := by
  decide +kernel

theorem groupSizes_crowd : groupSizes crowdPods crowdGroups crowd = crowdSizes := by
  have hmembers : (crowdSizes.flatMap fun n => List.replicate n (crowdMember n)).map
      (·.group? crowdPods crowdGroups) =
        crowdSizes.flatMap fun n => List.replicate n (some (crowdSizes.idxOf n)) := by
    rw [List.map_flatMap]
    refine List.flatMap_congr fun n hn => ?_
    rw [List.map_replicate, group?_crowdMember n hn]
  have hstray : stray.group? crowdPods crowdGroups = none := rfl
  simp only [groupSizes, crowd, List.map_append, hmembers, List.map_singleton, hstray,
    List.count_append, List.count_flatMap, Function.comp_def, List.count_replicate]
  decide +kernel

theorem sharesOverflow_crowd : SharesOverflow crowd crowdExpression "deploy" crowdPods := by
  refine ⟨crowdGroups, readBalance_crowd, by decide, ?_⟩
  rw [← zipWith_groupSizes, groupSizes_crowd]
  decide +kernel

/-! ## The law -/

/-- A balance is refused exactly if it has a cause to be. Then it tells the error of the cause, once
and last, and leaves all endpoints as they were; an expression that cannot be read is all that it
tells about. Without a cause there is no error and nothing is counted. -/
theorem refused_exactly_for_a_cause (hne : expression ≠ "") :
    ((errors (balance endpoints expression mode cluster origin).events).length = 1 ∧
        (errors (balance endpoints expression mode cluster origin).events).getLast? =
          (balance endpoints expression mode cluster origin).events.getLast? ∧
        growth .refusal (balance endpoints expression mode cluster origin).events = 1 ↔
      ∃ error, RefusalCause endpoints expression mode cluster error) ∧
    (∀ error, RefusalCause endpoints expression mode cluster error →
      RefusedFor origin endpoints error (balance endpoints expression mode cluster origin)) ∧
    (∀ error, readBalance expression = .error error →
      (balance endpoints expression mode cluster origin).events =
        [.rejectedBalance origin error]) ∧
    ((¬∃ error, RefusalCause endpoints expression mode cluster error) →
      Unrefused (balance endpoints expression mode cluster origin)) := by
  refine ⟨⟨?_, ?_⟩, fun error => refusedFor_balance hne,
    fun error => events_balance_of_error hne, unrefused_balance hne⟩
  · rintro ⟨-, -, hcounted⟩
    by_contra hcause
    rw [(unrefused_balance hne hcause).uncounted] at hcounted
    cases hcounted
  · rintro ⟨error, hcause⟩
    obtain ⟨honce, hlast, hcounted, -⟩ := refusedFor_balance hne hcause
    exact ⟨by rw [honce]; rfl, by rw [honce, hlast]; rfl, hcounted⟩

/-- A crowd is refused although it can be told apart and none of its weights is clamped. -/
theorem crowd_is_refused_as_a_whole :
    crowdExpression ≠ "" ∧ RefusalCause crowd crowdExpression "deploy" crowdPods .overflow ∧
      RefusedFor none crowd .overflow
        (balance crowd crowdExpression "deploy" crowdPods none) := by
  have hne : crowdExpression ≠ "" := by decide
  have hcause : RefusalCause crowd crowdExpression "deploy" crowdPods .overflow :=
    .overflow sharesOverflow_crowd
  obtain ⟨-, hrefused, -⟩ := refused_exactly_for_a_cause hne
  exact ⟨hne, hcause, hrefused .overflow hcause⟩

end Ingress
