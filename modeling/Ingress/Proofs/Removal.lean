-- The endpoints that a balance reports as removed. They are reported while the groups are formed,
-- and no weight is written before all weights are known. Main statement: what is reported removed
-- is removed and counted, unless shared weights overflow: then the report stands and nothing else.
import Ingress.Proofs.Refusal

namespace Ingress

/-! ## Endpoints without a known pod -/

/-- An endpoint gets requests, and refers to no pod or to one that is not known. -/
def Endpoint.Unresolved (e : Endpoint) (cluster : ClusterView) : Prop :=
  0 < e.weight ∧ (e.targetRef = none ∨
    ∃ targetRef error, e.targetRef = some targetRef ∧ cluster.podLabels targetRef = .error error)

variable {endpoints : List Endpoint} {expression mode : String} {cluster : ClusterView}
  {origin : Origin} {groups : List BalanceGroup} {weights : List Nat} {e : Endpoint}

theorem unresolved_iff :
    e.Unresolved cluster ↔ e.weight ≠ 0 ∧ ∃ cause, e.labels cluster = .error cause := by
  unfold Endpoint.Unresolved Endpoint.labels
  rw [Nat.pos_iff_ne_zero]
  refine and_congr_right fun _ => ?_
  cases e.targetRef with
  | none => simp
  | some targetRef => cases hpod : cluster.podLabels targetRef <;> simp [hpod]

instance (e : Endpoint) (cluster : ClusterView) : Decidable (e.Unresolved cluster) :=
  decidable_of_iff (e.weight ≠ 0 ∧ (e.labels cluster).isOk = false) (by
    rw [unresolved_iff]
    cases e.labels cluster <;> simp [Except.isOk, Except.toBool])

theorem group?_of_unresolved (h : e.Unresolved cluster) : e.group? cluster groups = none := by
  obtain ⟨hne, cause, hcause⟩ := unresolved_iff.mp h
  unfold Endpoint.group?
  rw [if_neg hne, hcause]

/-- An accepted balance leaves no requests to an endpoint without a known pod. -/
theorem weight_reweigh_of_unresolved (h : e.Unresolved cluster) :
    (e.reweigh cluster groups weights).weight = 0 := by
  rw [reweigh_of_group?_eq_none (group?_of_unresolved h)]

/-! ## What is told -/

/-- The endpoints that events tell of as removed. -/
def ToldRemoved (events : List Event) (e : Endpoint) : Prop :=
  ∃ origin cause, .removedEndpoint e origin cause ∈ events

theorem not_toldRemoved_of_notes {events : List Event} (h : ∀ e ∈ events, e.IsNote) :
    ¬ToldRemoved events e := by
  rintro ⟨origin, cause, he⟩
  cases h _ he

theorem toldRemoved_append {es es' : List Event} :
    ToldRemoved (es ++ es') e ↔ ToldRemoved es e ∨ ToldRemoved es' e := by
  simp only [ToldRemoved, List.mem_append, exists_or]

theorem toldRemoved_removalEvents :
    ToldRemoved (removalEvents origin cluster endpoints) e ↔
      e ∈ endpoints ∧ e.Unresolved cluster := by
  unfold ToldRemoved
  simp only [mem_removalEvents_iff, unresolved_iff]
  constructor
  · rintro ⟨o, cause, endpoint, hmem, hne, cause', hcause, heq⟩
    cases heq
    exact ⟨hmem, hne, cause, hcause⟩
  · rintro ⟨hmem, hne, cause, hcause⟩
    exact ⟨origin, cause, e, hmem, hne, cause, hcause, rfl⟩

theorem toldRemoved_remarks :
    ToldRemoved (remarks endpoints mode cluster origin groups) e ↔
      e ∈ endpoints ∧ e.Unresolved cluster := by
  unfold remarks
  rw [toldRemoved_append, toldRemoved_append, toldRemoved_append, toldRemoved_removalEvents]
  simp only [not_toldRemoved_of_notes fun e => isNote_of_mem_clampEvents,
    not_toldRemoved_of_notes fun e => isNote_of_mem_balanceMode,
    not_toldRemoved_of_notes fun e => isNote_of_mem_unmatchedEvents, false_or, or_false]

/-! ## What is counted -/

/-- The counter of removed endpoints. -/
def Count.removal : Count := ⟨.removedEndpoint, none⟩

theorem growth_removal_of_notes {events : List Event} (h : ∀ e ∈ events, e.IsNote) :
    growth .removal events = 0 := by
  refine growth_eq_zero fun e he => ?_
  rw [(h e he).count?_eq_none]
  simp

theorem growth_removalEvents :
    growth .removal (removalEvents origin cluster endpoints) =
      endpoints.countP fun e => e.Unresolved cluster := by
  unfold removalEvents
  rw [growth_eq_countP, List.countP_filterMap]
  refine List.countP_congr fun e _ => ?_
  by_cases h0 : e.weight = 0
  · simp [h0, unresolved_iff]
  · cases hlabels : e.labels cluster <;>
      simp [h0, hlabels, unresolved_iff, Event.count?, Count.removal]

theorem growth_removal_remarks :
    growth .removal (remarks endpoints mode cluster origin groups) =
      endpoints.countP fun e => e.Unresolved cluster := by
  unfold remarks
  simp only [growth_append, growth_removalEvents,
    growth_removal_of_notes fun e => isNote_of_mem_clampEvents,
    growth_removal_of_notes fun e => isNote_of_mem_balanceMode,
    growth_removal_of_notes fun e => isNote_of_mem_unmatchedEvents, Nat.zero_add, Nat.add_zero]

/-! ## Reports and weights -/

/-- A run of a balance removes what it tells of as removed, and counts the endpoints without a known
pod that it takes the weight of. -/
structure RemovesAsReported (endpoints : List Endpoint) (cluster : ClusterView)
    (run : Logged (List Endpoint)) : Prop where
  told : ∀ p ∈ endpoints.zip run.value, ToldRemoved run.events p.1 → p.2.weight = 0
  counted : growth .removal run.events =
    (endpoints.zip run.value).countP fun p => p.1.Unresolved cluster ∧ p.2.weight = 0

theorem countP_zip_map {α β : Type} (f : α → β) (p : α × β → Bool) (as : List α) :
    (as.zip (as.map f)).countP p = as.countP fun a => p (a, f a) := by
  induction as with
  | nil => rfl
  | cons a as ih => simp only [List.map_cons, List.zip_cons_cons, List.countP_cons, ih]

theorem removesAsReported_map_iff {run : Logged (List Endpoint)} {f : Endpoint → Endpoint}
    (hvalue : run.value = endpoints.map f) :
    RemovesAsReported endpoints cluster run ↔
      (∀ e ∈ endpoints, ToldRemoved run.events e → (f e).weight = 0) ∧
        growth .removal run.events =
          endpoints.countP fun e => e.Unresolved cluster ∧ (f e).weight = 0 := by
  constructor
  · rintro ⟨htold, hcounted⟩
    rw [hvalue] at htold hcounted
    rw [countP_zip_map] at hcounted
    refine ⟨fun e he => htold (e, f e) ?_, hcounted⟩
    rw [← List.map_id endpoints, List.map_map, List.zip_map']
    exact List.mem_map.mpr ⟨e, he, rfl⟩
  · rintro ⟨htold, hcounted⟩
    refine ⟨fun p hp => ?_, ?_⟩
    · rw [hvalue] at hp
      obtain ⟨hmem, hweight⟩ := of_mem_zip_map hp
      rw [hweight]
      exact htold p.1 hmem
    · rw [hvalue, countP_zip_map]
      exact hcounted

/-- Where no weight changes, there must be neither reports of endpoints with requests nor counts. -/
theorem removesAsReported_self_iff {run : Logged (List Endpoint)} (hvalue : run.value = endpoints) :
    RemovesAsReported endpoints cluster run ↔
      (∀ e ∈ endpoints, ToldRemoved run.events e → e.weight = 0) ∧
        growth .removal run.events = 0 := by
  have hnone : (endpoints.countP fun e => e.Unresolved cluster ∧ (id e).weight = 0) = 0 := by
    refine List.countP_eq_zero.mpr fun e _ => ?_
    simp only [decide_eq_true_eq, not_and]
    intro h
    exact (unresolved_iff.mp h).1
  rw [removesAsReported_map_iff (hvalue.trans (List.map_id endpoints).symm), hnone]
  rfl

/-! ## One run -/

theorem removesAsReported_of_unreadable {error : BalanceError} (hne : expression ≠ "")
    (hread : readBalance expression = .error error) :
    RemovesAsReported endpoints cluster (balance endpoints expression mode cluster origin) := by
  have hvalue : (balance endpoints expression mode cluster origin).value = endpoints := by
    apply value_balance_of_refused
    simp [weighing?, hread]
  rw [removesAsReported_self_iff hvalue, events_balance_of_error hne hread]
  constructor
  · rintro e - ⟨o, cause, he⟩
    cases List.mem_singleton.mp he
  · rfl

theorem removesAsReported_of_accepted (hne : expression ≠ "")
    (hread : readBalance expression = .ok groups)
    (hsome : weighing? endpoints expression mode cluster ≠ none) :
    RemovesAsReported endpoints cluster (balance endpoints expression mode cluster origin) := by
  obtain ⟨⟨groups', weights⟩, hweighing⟩ := Option.ne_none_iff_exists'.mp hsome
  have hvalue : (balance endpoints expression mode cluster origin).value =
      endpoints.map (·.reweigh cluster groups' weights) := by
    rw [value_balance, if_neg hne, hweighing]
  rw [removesAsReported_map_iff hvalue, events_balance_of_accepted hne hread hsome]
  constructor
  · intro e _ htold
    exact weight_reweigh_of_unresolved (toldRemoved_remarks.mp htold).2
  · rw [growth_removal_remarks]
    refine List.countP_congr fun e _ => ?_
    simp only [decide_eq_true_eq]
    exact ⟨fun h => ⟨h, weight_reweigh_of_unresolved h⟩, fun h => h.1⟩

/-- What an overflow leaves: all endpoints as they were, and a report of each one without a known
pod. -/
structure ReportsOnly (endpoints : List Endpoint) (cluster : ClusterView)
    (run : Logged (List Endpoint)) : Prop where
  unchanged : run.value = endpoints
  told : ∀ e, ToldRemoved run.events e ↔ e ∈ endpoints ∧ e.Unresolved cluster
  counted : growth .removal run.events = endpoints.countP fun e => e.Unresolved cluster

theorem reportsOnly_of_overflow (h : SharesOverflow endpoints expression mode cluster) :
    ReportsOnly endpoints cluster (balance endpoints expression mode cluster origin) := by
  obtain ⟨groups, hread, -⟩ := id h
  have hnone := (weighing?_eq_none_iff_overflow hread).mpr h
  have hne : expression ≠ "" := by
    rintro rfl
    cases hread
  have hevents : (balance endpoints expression mode cluster origin).events =
      remarks endpoints mode cluster origin groups ++ [.rejectedBalance origin .overflow] :=
    events_balance_of_overflow hne hread hnone
  refine ⟨value_balance_of_refused hnone, fun e => ?_, ?_⟩
  · rw [hevents, toldRemoved_append, toldRemoved_remarks]
    simp [ToldRemoved]
  · rw [hevents, growth_append, growth_removal_remarks]
    rfl

theorem removesAsReported_of_reportsOnly {run : Logged (List Endpoint)}
    (h : ReportsOnly endpoints cluster run) :
    RemovesAsReported endpoints cluster run ↔ ¬∃ e ∈ endpoints, e.Unresolved cluster := by
  obtain ⟨hvalue, htold, hcounted⟩ := h
  rw [removesAsReported_self_iff hvalue, hcounted, List.countP_eq_zero]
  constructor
  · rintro ⟨-, hnone⟩ ⟨e, he, hunresolved⟩
    exact hnone e he (decide_eq_true hunresolved)
  · intro hnone
    refine ⟨fun e he htold' => ?_, fun e he h => hnone ⟨e, he, of_decide_eq_true h⟩⟩
    exact absurd ⟨e, (htold e).mp htold'⟩ hnone

/-! ## A stray endpoint -/

theorem stray_mem_crowd : stray ∈ crowd := List.mem_append_right _ (List.mem_singleton_self stray)

theorem unresolved_stray : stray.Unresolved crowdPods := ⟨Nat.one_pos, .inl rfl⟩

/-- The crowd has but one stray endpoint. -/
theorem countP_unresolved_crowd : (crowd.countP fun e => e.Unresolved crowdPods) = 1 := by
  have hmembers : ((crowdSizes.flatMap fun n => List.replicate n (crowdMember n)).countP
      fun e => e.Unresolved crowdPods) = 0 := by
    refine List.countP_eq_zero.mpr fun e he hunresolved => ?_
    obtain ⟨n, hn, hreplicate⟩ := List.mem_flatMap.mp he
    have hgroup := group?_crowdMember n hn
    rw [← List.eq_of_mem_replicate hreplicate,
      group?_of_unresolved (of_decide_eq_true hunresolved)] at hgroup
    cases hgroup
  rw [crowd, List.countP_append, hmembers, List.countP_singleton,
    if_pos (decide_eq_true unresolved_stray)]

/-! ## The law -/

/-- A balance removes what it reports as removed, and counts it, unless shared weights overflow and
there is an endpoint without a known pod. Then it reports each such endpoint and removes none. -/
theorem removes_as_reported_unless_shares_overflow :
    (RemovesAsReported endpoints cluster (balance endpoints expression mode cluster origin) ↔
      ¬(SharesOverflow endpoints expression mode cluster ∧
        ∃ e ∈ endpoints, e.Unresolved cluster)) ∧
      (SharesOverflow endpoints expression mode cluster →
        ReportsOnly endpoints cluster (balance endpoints expression mode cluster origin)) := by
  refine ⟨?_, reportsOnly_of_overflow⟩
  by_cases hoverflow : SharesOverflow endpoints expression mode cluster
  · rw [removesAsReported_of_reportsOnly (reportsOnly_of_overflow hoverflow)]
    simp [hoverflow]
  · simp only [hoverflow, false_and, not_false_eq_true, iff_true]
    by_cases hne : expression = ""
    · have hvalue : (balance endpoints expression mode cluster origin).value = endpoints := by
        rw [value_balance, if_pos hne]
      rw [removesAsReported_self_iff hvalue, balance, if_pos hne]
      constructor
      · rintro e - ⟨o, cause, he⟩
        cases he
      · rfl
    · cases hread : readBalance expression with
      | error error => exact removesAsReported_of_unreadable hne hread
      | ok groups =>
        exact removesAsReported_of_accepted hne hread
          (mt (weighing?_eq_none_iff_overflow hread).mp hoverflow)

/-- The stray endpoint of a crowd is told of and counted as removed, and keeps its weight. -/
theorem stray_is_reported_and_stays :
    ToldRemoved (balance crowd crowdExpression "deploy" crowdPods none).events stray ∧
      growth .removal (balance crowd crowdExpression "deploy" crowdPods none).events = 1 ∧
      (balance crowd crowdExpression "deploy" crowdPods none).value = crowd ∧
      stray ∈ crowd ∧ stray.weight = 1 ∧
      ¬RemovesAsReported crowd crowdPods
        (balance crowd crowdExpression "deploy" crowdPods none) := by
  have honly : ReportsOnly crowd crowdPods
      (balance crowd crowdExpression "deploy" crowdPods none) :=
    reportsOnly_of_overflow sharesOverflow_crowd
  refine ⟨(honly.told stray).mpr ⟨stray_mem_crowd, unresolved_stray⟩, ?_, honly.unchanged,
    stray_mem_crowd, rfl, ?_⟩
  · rw [honly.counted, countP_unresolved_crowd]
  · rw [removesAsReported_of_reportsOnly honly, not_not]
    exact ⟨stray, stray_mem_crowd, unresolved_stray⟩

end Ingress
