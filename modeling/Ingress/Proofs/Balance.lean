-- A balance expression applied more than once. An endpoint of weight 0 joins no group, so a second
-- run counts fewer endpoints than the first one did. Main statement: the weights are nevertheless
-- those of the last mode alone, and a run that is repeated changes nothing.
import Ingress.Balance.Apply
import Ingress.Proofs.Limit
import Ingress.Proofs.Remarks

namespace Ingress

/-! ## One run -/

/-- The mode that a name stands for. -/
def BalanceMode.ofName (s : String) : BalanceMode := (BalanceMode.ofName? s).getD .deploy

theorem value_balanceMode (origin : Origin) (name : String) :
    (balanceMode origin name).value = BalanceMode.ofName name := by
  unfold balanceMode BalanceMode.ofName
  cases BalanceMode.ofName? name <;> rfl

/-- The groups of an expression and the weights of their endpoints, unless it is refused. -/
def weighing? (endpoints : List Endpoint) (expression mode : String) (cluster : ClusterView) :
    Option (List BalanceGroup × List Nat) :=
  match readBalance expression with
  | .error _ => none
  | .ok groups =>
    (groupWeights (BalanceMode.ofName mode) groups (groupSizes cluster groups endpoints)).map
      fun weights => (groups, weights)

theorem value_balance (endpoints : List Endpoint) (expression mode : String)
    (cluster : ClusterView) (origin : Origin) :
    (balance endpoints expression mode cluster origin).value =
      if expression = "" then endpoints
      else match weighing? endpoints expression mode cluster with
        | none => endpoints
        | some (groups, weights) => endpoints.map (·.reweigh cluster groups weights) := by
  unfold balance weighing?
  split
  · rfl
  · cases readBalance expression with
    | error error => rfl
    | ok groups =>
      simp only [Logged.value_bind, value_balanceMode]
      cases groupWeights (BalanceMode.ofName mode) groups (groupSizes cluster groups endpoints)
        <;> rfl

section Events

variable {endpoints : List Endpoint} {expression mode : String} {cluster : ClusterView}
  {origin : Origin} {groups : List BalanceGroup}

theorem events_balance_of_error {error : BalanceError} (hne : expression ≠ "")
    (hread : readBalance expression = .error error) :
    (balance endpoints expression mode cluster origin).events =
      [.rejectedBalance origin error] := by
  unfold balance
  rw [if_neg hne, hread]
  rfl

theorem events_balance_of_overflow (hne : expression ≠ "")
    (hread : readBalance expression = .ok groups)
    (hnone : weighing? endpoints expression mode cluster = none) :
    (balance endpoints expression mode cluster origin).events =
      remarks endpoints mode cluster origin groups ++ [.rejectedBalance origin .overflow] := by
  simp only [weighing?, hread, Option.map_eq_none_iff] at hnone
  unfold balance remarks
  rw [if_neg hne, hread]
  simp only [Logged.events_bind, Logged.events_tellAll, value_balanceMode, hnone, List.append_assoc]
  rfl

theorem events_balance_of_accepted (hne : expression ≠ "")
    (hread : readBalance expression = .ok groups)
    (hsome : weighing? endpoints expression mode cluster ≠ none) :
    (balance endpoints expression mode cluster origin).events =
      remarks endpoints mode cluster origin groups := by
  simp only [weighing?, hread, ne_eq, Option.map_eq_none_iff] at hsome
  obtain ⟨weights, hweights⟩ := Option.ne_none_iff_exists'.mp hsome
  unfold balance remarks
  rw [if_neg hne, hread]
  simp only [Logged.events_bind, Logged.events_tellAll, value_balanceMode, hweights]
  rw [Logged.events_pure, List.append_nil]

/-- Whether a balance was refused as a whole. -/
def Refused (run : Logged (List Endpoint)) : Prop :=
  ∃ origin error, Event.rejectedBalance origin error ∈ run.events

theorem refused_balance_iff :
    Refused (balance endpoints expression mode cluster origin) ↔
      expression ≠ "" ∧ weighing? endpoints expression mode cluster = none := by
  unfold Refused
  by_cases hne : expression = ""
  · simp [balance, hne]
  · cases hread : readBalance expression with
    | error error => simp [events_balance_of_error hne hread, weighing?, hread, hne]
    | ok groups =>
      by_cases hnone : weighing? endpoints expression mode cluster = none
      · rw [events_balance_of_overflow hne hread hnone]
        exact ⟨fun _ => ⟨hne, hnone⟩, fun _ => ⟨origin, .overflow, by simp⟩⟩
      · rw [events_balance_of_accepted hne hread hnone]
        constructor
        · rintro ⟨o, error, hm⟩
          rcases isRemark_of_mem_remarks hm with hnote | _
          cases hnote
        · rintro ⟨-, hnone'⟩
          exact absurd hnone' hnone

end Events

/-! ## Weights of groups -/

/-- The sizes of groups without the endpoints of groups of weight 0. -/
def prunedSizes (groups : List BalanceGroup) (sizes : List Nat) : List Nat :=
  groups.zipWith (fun g n => if clampWeight g.weight = 0 then 0 else n) sizes

theorem map_prune_zipWith (groups : List BalanceGroup) (sizes : List Nat) :
    (((groups.map fun g => clampWeight g.weight).zipWith Share.Group.mk sizes).map
      Share.Group.prune) =
      (groups.map fun g => clampWeight g.weight).zipWith Share.Group.mk
        (prunedSizes groups sizes) := by
  unfold prunedSizes
  induction groups generalizing sizes with
  | nil => rfl
  | cons g groups ih =>
    cases sizes with
    | nil => rfl
    | cons n sizes =>
      simp only [List.map_cons, List.zipWith_cons_cons, ih, Share.Group.prune]
      split <;> rfl

/-- Endpoints of groups of weight 0 make no difference to the weights. -/
theorem groupWeights_prunedSizes {mode : BalanceMode} {groups : List BalanceGroup}
    {sizes weights : List Nat} (h : groupWeights mode groups sizes = some weights) :
    groupWeights mode groups (prunedSizes groups sizes) = some weights := by
  cases mode with
  | pod => exact h
  | deploy =>
    have hprune := Share.weights_prune h
    rw [map_prune_zipWith] at hprune
    exact hprune

/-- A group with endpoints has a weight, which is 0 only if the expression says so. -/
theorem getElem?_groupWeights {mode : BalanceMode} {groups : List BalanceGroup}
    {sizes weights : List Nat} (h : groupWeights mode groups sizes = some weights) {i n : Nat}
    {g : BalanceGroup} (hg : groups[i]? = some g) (hn : sizes[i]? = some n) (hpos : 0 < n) :
    ∃ w, weights[i]? = some w ∧ (w = 0 ↔ clampWeight g.weight = 0) := by
  cases mode with
  | pod =>
    refine ⟨clampWeight g.weight, ?_, Iff.rfl⟩
    rw [← Option.some.inj h, List.getElem?_map, hg]
    rfl
  | deploy =>
    have hzeros := congrArg (·[i]?) (Share.zeros_of_weights h)
    simp only [Share.zeros, List.getElem?_map, List.getElem?_zipWith, hg, hn, Option.map_some,
      Option.map_eq_some_iff, decide_eq_decide, Nat.pos_iff_ne_zero.mp hpos, or_false] at hzeros
    exact hzeros

/-! ## Endpoints -/

variable {cluster : ClusterView} {groups : List BalanceGroup} {weights : List Nat}
  {endpoints : List Endpoint}

theorem getElem?_groupSizes {i : Nat} (hi : i < groups.length) :
    (groupSizes cluster groups endpoints)[i]? =
      some ((endpoints.map fun e => e.group? cluster groups).count (some i)) := by
  simp [groupSizes, hi]

/-- An endpoint joins a group that exists. -/
theorem lt_length_of_group? {e : Endpoint} {i : Nat} (h : e.group? cluster groups = some i) :
    i < groups.length := by
  unfold Endpoint.group? at h
  split at h
  · cases h
  · cases hl : e.labels cluster with
    | error cause => simp [hl] at h
    | ok labels =>
      simp only [hl] at h
      exact (List.findIdx?_eq_some_iff_getElem.mp h).1

/-- The weight of an endpoint's group, which is 0 only if the expression says so. -/
theorem weight_of_group? {mode : BalanceMode} {e : Endpoint} {i : Nat} (he : e ∈ endpoints)
    (h : groupWeights mode groups (groupSizes cluster groups endpoints) = some weights)
    (hgroup : e.group? cluster groups = some i) (hi : i < groups.length) :
    ∃ w, weights[i]? = some w ∧ (w = 0 ↔ clampWeight groups[i].weight = 0) := by
  refine getElem?_groupWeights h (List.getElem?_eq_getElem hi) (getElem?_groupSizes hi) ?_
  exact List.count_pos_iff.mpr (List.mem_map.mpr ⟨e, he, hgroup⟩)

theorem reweigh_of_weight_eq_zero {e : Endpoint} (h : e.weight = 0) :
    e.reweigh cluster groups weights = e := if_pos h

theorem reweigh_of_group?_eq_none {e : Endpoint} (h : e.group? cluster groups = none) :
    e.reweigh cluster groups weights = { e with weight := 0 } := by
  unfold Endpoint.reweigh
  split
  · next h0 => rw [← h0]
  · simp [h]

theorem reweigh_of_group?_eq_some {e : Endpoint} {i w : Nat}
    (h : e.group? cluster groups = some i) (hw : weights[i]? = some w) :
    e.reweigh cluster groups weights = { e with weight := w } := by
  have hne : e.weight ≠ 0 := fun h0 => by simp [Endpoint.group?, h0] at h
  simp [Endpoint.reweigh, hne, h, hw]

/-- A new weight takes an endpoint out of its group if it is 0, and else leaves it there. -/
theorem group?_with_weight {e : Endpoint} (hne : e.weight ≠ 0) (w : Nat) :
    ({ e with weight := w } : Endpoint).group? cluster groups =
      if w = 0 then none else e.group? cluster groups := by
  simp only [Endpoint.group?, hne, if_false]
  rfl

/-- Behind a run the group of an endpoint is the one it had, unless this group has weight 0. -/
theorem group?_reweigh_eq_some_iff {mode : BalanceMode} {e : Endpoint} {i : Nat}
    (he : e ∈ endpoints)
    (h : groupWeights mode groups (groupSizes cluster groups endpoints) = some weights)
    (hi : i < groups.length) :
    (e.reweigh cluster groups weights).group? cluster groups = some i ↔
      clampWeight groups[i].weight ≠ 0 ∧ e.group? cluster groups = some i := by
  by_cases h0 : e.weight = 0
  · simp [reweigh_of_weight_eq_zero h0, Endpoint.group?, h0]
  · cases hgroup : e.group? cluster groups with
    | none => simp [reweigh_of_group?_eq_none hgroup, Endpoint.group?]
    | some j =>
      have hj := lt_length_of_group? hgroup
      obtain ⟨w, hw, hzero⟩ := weight_of_group? he h hgroup hj
      rw [reweigh_of_group?_eq_some hgroup hw, group?_with_weight h0, hgroup]
      by_cases hji : j = i
      · subst hji
        by_cases hw0 : w = 0 <;> simp [hw0, ← hzero]
      · by_cases hw0 : w = 0 <;> simp [hw0, hji]

theorem groupSizes_reweigh {mode : BalanceMode}
    (h : groupWeights mode groups (groupSizes cluster groups endpoints) = some weights) :
    groupSizes cluster groups (endpoints.map (·.reweigh cluster groups weights)) =
      prunedSizes groups (groupSizes cluster groups endpoints) := by
  -- Group by group: one of weight 0 loses all its endpoints, every other one keeps its own.
  refine List.ext_getElem? fun i => ?_
  by_cases hi : i < groups.length
  · rw [getElem?_groupSizes hi, prunedSizes, List.getElem?_zipWith,
      List.getElem?_eq_getElem hi, getElem?_groupSizes hi]
    simp only [List.map_map, List.count_eq_countP, List.countP_map, Option.some.injEq]
    split
    · next hzero =>
      refine List.countP_eq_zero.mpr fun e he => ?_
      simp [group?_reweigh_eq_some_iff he h hi, hzero]
    · next hzero =>
      refine List.countP_congr fun e he => ?_
      simp [group?_reweigh_eq_some_iff he h hi, hzero]
  · rw [List.getElem?_eq_none (by simpa [groupSizes] using hi), prunedSizes,
      List.getElem?_zipWith, List.getElem?_eq_none (by omega)]

/-- Of two runs only the weights of the second one stay. -/
theorem reweigh_reweigh {mode₁ mode₂ : BalanceMode} {weights₁ weights₂ : List Nat} {e : Endpoint}
    (he : e ∈ endpoints)
    (h₁ : groupWeights mode₁ groups (groupSizes cluster groups endpoints) = some weights₁)
    (h₂ : groupWeights mode₂ groups (groupSizes cluster groups endpoints) = some weights₂) :
    (e.reweigh cluster groups weights₁).reweigh cluster groups weights₂ =
      e.reweigh cluster groups weights₂ := by
  by_cases h0 : e.weight = 0
  · rw [reweigh_of_weight_eq_zero h0]
  · cases hgroup : e.group? cluster groups with
    | none => rw [reweigh_of_group?_eq_none hgroup, reweigh_of_group?_eq_none hgroup,
        reweigh_of_weight_eq_zero rfl]
    | some i =>
      have hi := lt_length_of_group? hgroup
      obtain ⟨w₁, hw₁, hzero₁⟩ := weight_of_group? he h₁ hgroup hi
      obtain ⟨w₂, hw₂, hzero₂⟩ := weight_of_group? he h₂ hgroup hi
      rw [reweigh_of_group?_eq_some hgroup hw₁, reweigh_of_group?_eq_some hgroup hw₂]
      -- The first run takes the endpoint out of its group only if the second one would do so too.
      by_cases hw0 : w₁ = 0
      · have hw0' : w₂ = 0 := hzero₂.mpr (hzero₁.mp hw0)
        rw [hw0, hw0', reweigh_of_weight_eq_zero rfl]
      · have hsame : ({ e with weight := w₁ } : Endpoint).group? cluster groups = some i := by
          rw [group?_with_weight h0, if_neg hw0, hgroup]
        exact reweigh_of_group?_eq_some hsame hw₂

/-! ## Two runs -/

/-- A run behind another one finds the weights that it would have found without it. -/
theorem weighing?_reweigh {expression first last : String} {groups₂ : List BalanceGroup}
    {weights₁ weights₂ : List Nat}
    (h₁ : weighing? endpoints expression first cluster = some (groups, weights₁))
    (h₂ : weighing? endpoints expression last cluster = some (groups₂, weights₂)) :
    groups₂ = groups ∧ weighing? (endpoints.map (·.reweigh cluster groups weights₁)) expression last
      cluster = some (groups, weights₂) ∧
      (endpoints.map (·.reweigh cluster groups weights₁)).map
          (·.reweigh cluster groups weights₂) =
        endpoints.map (·.reweigh cluster groups weights₂) := by
  unfold weighing? at h₁ h₂ ⊢
  cases hread : readBalance expression with
  | error error => simp [hread] at h₁
  | ok read =>
    simp only [hread, Option.map_eq_some_iff, Prod.mk.injEq] at h₁ h₂
    obtain ⟨_, hw₁, rfl, rfl⟩ := h₁
    obtain ⟨_, hw₂, rfl, rfl⟩ := h₂
    refine ⟨rfl, ?_, ?_⟩
    · simp only [groupSizes_reweigh hw₁, groupWeights_prunedSizes hw₂, Option.map_some]
    · rw [List.map_map]
      exact List.map_congr_left fun e he => reweigh_reweigh he hw₁ hw₂

theorem value_balance_of_refused {expression mode : String} {origin : Origin}
    (h : weighing? endpoints expression mode cluster = none) :
    (balance endpoints expression mode cluster origin).value = endpoints := by
  rw [value_balance, h]
  exact ite_self endpoints

/-- A mode that is accepted is accepted behind any other one, and leaves the same endpoints. -/
theorem balance_balance {expression first last : String} {o₁ o₂ : Origin}
    (h : ¬Refused (balance endpoints expression last cluster o₂)) :
    ¬Refused (balance (balance endpoints expression first cluster o₁).value expression last cluster
        o₂) ∧
      (balance (balance endpoints expression first cluster o₁).value expression last cluster
        o₂).value = (balance endpoints expression last cluster o₂).value := by
  by_cases he : expression = ""
  · simp [refused_balance_iff, value_balance, he]
  · cases h₁ : weighing? endpoints expression first cluster with
    | none => rw [value_balance_of_refused h₁]; exact ⟨h, rfl⟩
    | some read =>
      obtain ⟨groups, weights₁⟩ := read
      rw [refused_balance_iff, not_and] at h
      obtain ⟨⟨groups₂, weights₂⟩, h₂⟩ := Option.ne_none_iff_exists'.mp (h he)
      obtain ⟨rfl, hagain, hmap⟩ := weighing?_reweigh h₁ h₂
      rw [refused_balance_iff]
      simp only [value_balance, he, if_false, h₁, h₂, hagain, hmap]
      simp

theorem balance_twice (endpoints : List Endpoint) (expression mode : String)
    (cluster : ClusterView) (o₁ o₂ : Origin) :
    (balance (balance endpoints expression mode cluster o₁).value expression mode cluster
      o₂).value = (balance endpoints expression mode cluster o₁).value := by
  by_cases h : Refused (balance endpoints expression mode cluster o₁)
  · rw [value_balance_of_refused (refused_balance_iff.mp h).2, value_balance_of_refused
      (refused_balance_iff.mp h).2]
  · have h₂ : ¬Refused (balance endpoints expression mode cluster o₂) := by
      rwa [refused_balance_iff] at h ⊢
    rw [(balance_balance h₂).2, value_balance, value_balance]

/-! ## The law -/

/-- The last mode wins, and a run that is repeated changes nothing. A mode that the endpoints as
they were would have accepted is accepted behind any other mode too, also behind one that was
refused; the repeated run may be accepted or refused. -/
theorem last_balance_mode_wins (endpoints : List Endpoint) (expression first last : String)
    (cluster : ClusterView) (o₁ o₂ : Origin) :
    (¬Refused (balance endpoints expression last cluster o₂) →
      ¬Refused (balance (balance endpoints expression first cluster o₁).value expression last
          cluster o₂) ∧
        (balance (balance endpoints expression first cluster o₁).value expression last cluster
          o₂).value = (balance endpoints expression last cluster o₂).value) ∧
      (balance (balance endpoints expression first cluster o₁).value expression first cluster
        o₂).value = (balance endpoints expression first cluster o₁).value :=
  ⟨balance_balance, balance_twice endpoints expression first cluster o₁ o₂⟩

/-- Pods of three versions. -/
def versionPods : Cluster :=
  ((Cluster.empty.addPod "a" (Table.ofList [("v", "1")])).addPod "b"
    (Table.ofList [("v", "2")])).addPod "c" (Table.ofList [("v", "3")])

/-- One endpoint of version 1, two of version 2, three of version 3 and one without a pod. -/
def versionEndpoints : List Endpoint :=
  [⟨"10.0.0.1", 80, 1, some "a"⟩, ⟨"10.0.0.2", 80, 1, some "b"⟩, ⟨"10.0.0.3", 80, 1, some "b"⟩,
    ⟨"10.0.0.4", 80, 1, some "c"⟩, ⟨"10.0.0.5", 80, 1, some "c"⟩, ⟨"10.0.0.6", 80, 1, some "c"⟩,
    ⟨"10.0.0.7", 80, 1, none⟩]

/-- Full weights give way to shares. The first run takes out version 3, so that the second one
shares by sizes 1 and 2 in place of 1, 2 and 3. -/
theorem shares_win_over_full_weights :
    ¬Refused (balance versionEndpoints "v=1=50,v=2=25,v=3=0" "deploy" versionPods none) ∧
      (balance (balance versionEndpoints "v=1=50,v=2=25,v=3=0" "pod" versionPods none).value
        "v=1=50,v=2=25,v=3=0" "deploy" versionPods none).value.map (·.weight) =
        [4, 1, 1, 0, 0, 0, 0] := by
  have h : ¬Refused (balance versionEndpoints "v=1=50,v=2=25,v=3=0" "deploy" versionPods none) := by
    rw [refused_balance_iff]
    decide
  refine ⟨h, ?_⟩
  rw [((last_balance_mode_wins versionEndpoints "v=1=50,v=2=25,v=3=0" "pod" "deploy" versionPods
    none none).1 h).2]
  decide

end Ingress
