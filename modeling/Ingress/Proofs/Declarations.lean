-- What a sequence of declarations leaves: for each key the first one at each scope, in the order in
-- which they came. The first of all is the canonical one.
import Ingress.Declarations

namespace Ingress

/-! ## First elements -/

/-- The declarations that are the first ones at their scopes. -/
def firstAtScopes (es : List Declaration) : List Declaration :=
  es.eraseDupsBy fun a b => a.scope == b.scope

theorem firstAtScopes_cons (e : Declaration) (es : List Declaration) :
    firstAtScopes (e :: es) = e :: firstAtScopes (es.filter fun x => !(x.scope == e.scope)) := by
  unfold firstAtScopes
  rw [List.eraseDupsBy_cons]
  simp only [Bool.decide_eq_false]

theorem head?_firstAtScopes (es : List Declaration) : (firstAtScopes es).head? = es.head? := by
  cases es with
  | nil => rfl
  | cons e es => rw [firstAtScopes_cons, List.head?_cons, List.head?_cons]

theorem firstAtScopes_eq_nil {es : List Declaration} : firstAtScopes es = [] ↔ es = [] := by
  rw [← List.head?_eq_none_iff, head?_firstAtScopes, List.head?_eq_none_iff]

/-- Leaving out other scopes does not hide the first declaration at a scope. -/
theorem find?_filter_ne {es : List Declaration} {scope other : String} (h : other ≠ scope) :
    (es.filter fun x => !(x.scope == other)).find? (·.scope = scope) =
      es.find? (·.scope = scope) := by
  rw [List.find?_filter]
  congr 1
  funext x
  by_cases hx : x.scope = scope <;> simp [hx, Ne.symm h]

theorem find?_firstAtScopes (es : List Declaration) (scope : String) :
    (firstAtScopes es).find? (·.scope = scope) = es.find? (·.scope = scope) := by
  match es with
  | [] => rfl
  | e :: es =>
    rw [firstAtScopes_cons, List.find?_cons, List.find?_cons]
    by_cases he : e.scope = scope
    · simp [he]
    · simp only [he, decide_false]
      rw [find?_firstAtScopes, find?_filter_ne he]
termination_by es.length
decreasing_by exact Nat.lt_succ_of_le (List.length_filter_le _ _)

namespace Declarations

/-! ## One declaration -/

theorem declares_add (d : Declarations) (e : Declaration) (key scope : String) :
    (d.add e).declares key scope =
      (d.declares key scope || (decide (e.key = key) && decide (e.scope = scope))) := by
  unfold declares
  rw [log_add]
  split
  · next h =>
    by_cases hk : e.key = key ∧ e.scope = scope
    · obtain ⟨rfl, rfl⟩ := hk
      simpa [declares] using h
    · rw [not_and] at hk
      by_cases he : e.key = key <;> simp_all
  · simp [List.any_append]

theorem declares_eq_isSome_at? (d : Declarations) (key scope : String) :
    d.declares key scope = (d.at? key scope).isSome := by
  rw [at?, List.isSome_find?, ofKey, List.any_filter]
  rfl

/-! ## A sequence of declarations -/

/-- Behind a sequence of declarations, a key has the first new one at each scope. -/
theorem ofKey_foldl_add (d : Declarations) (es : List Declaration) (key : String) :
    (es.foldl add d).ofKey key = d.ofKey key ++
      firstAtScopes ((es.filter (·.key = key)).filter fun e => !d.declares key e.scope) := by
  induction es generalizing d with
  | nil => simp [firstAtScopes]
  | cons e es ih =>
    rw [List.foldl_cons, ih, ofKey_add]
    by_cases hkey : e.key = key
    · subst hkey
      cases hold : d.declares e.key e.scope with
      | true =>
        have hsame : ∀ scope, (d.add e).declares e.key scope = d.declares e.key scope := by
          intro scope
          rw [declares_add]
          by_cases hs : e.scope = scope
          · subst hs; simp [hold]
          · simp [hs]
        simp [hold, hsame]
      | false =>
        simp only [and_self, if_true, List.filter_cons, decide_true, hold, Bool.not_false,
          firstAtScopes_cons, List.append_assoc, List.singleton_append, List.filter_filter]
        congr 3
        refine List.filter_congr fun x _ => ?_
        rw [declares_add]
        by_cases hs : x.scope = e.scope
        · simp [hs]
        · simp [hs, Ne.symm hs]
    · simp [hkey, declares_add]

theorem ofKey_foldl_add_empty (es : List Declaration) (key : String) :
    (es.foldl add empty).ofKey key = firstAtScopes (es.filter (·.key = key)) := by
  rw [ofKey_foldl_add]
  simp [empty, ofKey, declares]

theorem mem_log_foldl_add {d : Declarations} {es : List Declaration} {e : Declaration}
    (h : e ∈ (es.foldl add d).log) : e ∈ d.log ∨ e ∈ es := by
  induction es generalizing d with
  | nil => exact .inl h
  | cons x es ih =>
    rcases ih h with hlog | hrest
    · rw [log_add] at hlog
      split at hlog
      · exact .inl hlog
      · rcases List.mem_append.mp hlog with hold | hnew
        · exact .inl hold
        · exact .inr (List.mem_cons.mpr (.inl (List.mem_singleton.mp hnew)))
    · exact .inr (List.mem_cons_of_mem _ hrest)

end Declarations

end Ingress
