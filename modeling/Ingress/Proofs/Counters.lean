-- What is counted of the events of a step. Main statement: the growth that is reported of a counter
-- is the number of events that make it grow.
import Ingress.Logged

namespace Ingress

/-! ## Growth -/

/-- How much a counter grew over some events, as it is reported. -/
def growth (c : Count) (events : List Event) : Nat := ((counts events).lookup c).getD 0

theorem lookup_of_values {α β : Type} [DecidableEq α] (f : α → β) (as : List α) (a : α) :
    (as.map fun b => (b, f b)).lookup a = if a ∈ as then some (f a) else none := by
  induction as with
  | nil => rfl
  | cons b as ih =>
    rw [List.map_cons, List.lookup_cons, ih]
    by_cases h : a = b
    · simp [h]
    · rw [beq_false_of_ne h]
      simp [h]

theorem growth_eq_countP (c : Count) (events : List Event) :
    growth c events = events.countP (·.count? = some c) := by
  have hcount : (events.filterMap (·.count?)).count c = events.countP (·.count? = some c) := by
    rw [List.count_filterMap]
    exact List.countP_congr fun e _ => by simp
  unfold growth counts
  dsimp only
  rw [lookup_of_values, ← hcount]
  split
  · rfl
  · next hnew =>
    rw [List.mem_eraseDups] at hnew
    exact (List.count_eq_zero.mpr hnew).symm

theorem growth_append (c : Count) (es es' : List Event) :
    growth c (es ++ es') = growth c es + growth c es' := by
  simp only [growth_eq_countP, List.countP_append]

/-- A counter stays as it is over events that do not make it grow. -/
theorem growth_eq_zero {c : Count} {events : List Event} (h : ∀ e ∈ events, e.count? ≠ some c) :
    growth c events = 0 := by
  rw [growth_eq_countP, List.countP_eq_zero]
  intro e he
  simp [h e he]

/-- What does not make a counter grow may be left out. -/
theorem growth_filter {c : Count} {p : Event → Bool} (h : ∀ e, e.count? = some c → p e = true)
    (events : List Event) : growth c (events.filter p) = growth c events := by
  rw [growth_eq_countP, growth_eq_countP, List.countP_filter]
  refine List.countP_congr fun e _ => ?_
  simpa using h e

/-! ## Errors -/

/-- The errors among some events. -/
def errors (events : List Event) : List Event := events.filter (·.level = .error)

theorem errors_append (es es' : List Event) : errors (es ++ es') = errors es ++ errors es' :=
  List.filter_append es es'

theorem errors_eq_nil {events : List Event} (h : ∀ e ∈ events, e.level ≠ .error) :
    errors events = [] := by
  rw [errors, List.filter_eq_nil_iff]
  intro e he
  simp [h e he]

end Ingress
