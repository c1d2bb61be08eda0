-- What a balance tells without being refused: numbers that are no weights, a mode that means none,
-- endpoints without a known pod, and groups without endpoints. Main statement: a balance tells
-- nothing but remarks and its refusal.
import Ingress.Balance.Apply

namespace Ingress

/-- A remark that no counter counts. -/
inductive Event.IsNote : Event → Prop where
  | clamped (origin : Origin) (weight : Int) (used : Nat) :
    IsNote (.clampedWeight origin weight used)
  | mode (origin : Origin) (mode : String) : IsNote (.unsupportedBalanceMode origin mode)
  | unmatched (group : BalanceGroup) (origin : Origin) : IsNote (.unmatchedGroup group origin)

theorem Event.IsNote.count?_eq_none {e : Event} (h : e.IsNote) : e.count? = none := by
  cases h <;> rfl

/-- A remark on a part of a balance. -/
inductive Event.IsRemark : Event → Prop where
  | note {e : Event} (h : e.IsNote) : IsRemark e
  | removed (endpoint : Endpoint) (origin : Origin) (cause : RemovalCause) :
    IsRemark (.removedEndpoint endpoint origin cause)

theorem Event.IsRemark.level_ne_error {e : Event} (h : e.IsRemark) : e.level ≠ .error := by
  rcases h with h | _
  · cases h <;> simp [Event.level]
  · simp [Event.level]

variable {endpoints : List Endpoint} {mode : String} {cluster : ClusterView} {origin : Origin}
  {groups : List BalanceGroup} {sizes : List Nat} {e : Event}

theorem isNote_of_mem_clampEvents (he : e ∈ clampEvents origin groups) : e.IsNote := by
  obtain ⟨g, -, hg⟩ := List.mem_filterMap.mp he
  split at hg
  · cases hg
    exact .clamped _ _ _
  · cases hg

theorem isNote_of_mem_balanceMode (he : e ∈ (balanceMode origin mode).events) : e.IsNote := by
  unfold balanceMode at he
  split at he
  · cases he
  · rw [List.mem_singleton.mp he]
    exact .mode _ _

theorem isNote_of_mem_unmatchedEvents (he : e ∈ unmatchedEvents origin groups sizes) :
    e.IsNote := by
  obtain ⟨g, -, rfl⟩ := List.mem_map.mp he
  exact .unmatched _ _

theorem mem_removalEvents_iff : e ∈ removalEvents origin cluster endpoints ↔
    ∃ endpoint ∈ endpoints, endpoint.weight ≠ 0 ∧ ∃ cause,
      endpoint.labels cluster = .error cause ∧ e = .removedEndpoint endpoint origin cause := by
  unfold removalEvents
  rw [List.mem_filterMap]
  refine exists_congr fun endpoint => and_congr_right fun _ => ?_
  by_cases h0 : endpoint.weight = 0
  · simp [h0]
  · cases hlabels : endpoint.labels cluster <;> simp [h0, eq_comm]

theorem isRemark_of_mem_removalEvents (he : e ∈ removalEvents origin cluster endpoints) :
    e.IsRemark := by
  obtain ⟨endpoint, -, -, cause, -, rfl⟩ := mem_removalEvents_iff.mp he
  exact .removed _ _ _

/-- The remarks on weights, the mode, endpoints and groups, in this order. -/
def remarks (endpoints : List Endpoint) (mode : String) (cluster : ClusterView) (origin : Origin)
    (groups : List BalanceGroup) : List Event :=
  clampEvents origin groups ++ ((balanceMode origin mode).events ++
    (removalEvents origin cluster endpoints ++
      unmatchedEvents origin groups (groupSizes cluster groups endpoints)))

theorem isRemark_of_mem_remarks (he : e ∈ remarks endpoints mode cluster origin groups) :
    e.IsRemark := by
  rcases List.mem_append.mp he with hclamp | he
  · exact .note (isNote_of_mem_clampEvents hclamp)
  rcases List.mem_append.mp he with hmode | he
  · exact .note (isNote_of_mem_balanceMode hmode)
  rcases List.mem_append.mp he with hremoval | hunmatched
  · exact isRemark_of_mem_removalEvents hremoval
  · exact .note (isNote_of_mem_unmatchedEvents hunmatched)

theorem remark_or_refusal {expression : String}
    (he : e ∈ (balance endpoints expression mode cluster origin).events) :
    e.IsRemark ∨ ∃ error, e = .rejectedBalance origin error := by
  unfold balance at he
  split at he
  · cases he
  · cases hread : readBalance expression with
    | error error =>
      rw [hread] at he
      exact .inr ⟨error, List.mem_singleton.mp he⟩
    | ok groups =>
      rw [hread] at he
      simp only [Logged.events_bind, Logged.events_tellAll, List.mem_append] at he
      rcases he with hclamp | hmode | hremoval | hunmatched | hlast
      · exact .inl (.note (isNote_of_mem_clampEvents hclamp))
      · exact .inl (.note (isNote_of_mem_balanceMode hmode))
      · exact .inl (isRemark_of_mem_removalEvents hremoval)
      · exact .inl (.note (isNote_of_mem_unmatchedEvents hunmatched))
      · split at hlast
        · exact .inr ⟨.overflow, List.mem_singleton.mp hlast⟩
        · cases hlast

end Ingress
