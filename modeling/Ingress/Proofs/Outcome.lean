-- Runs that end in a result or an error, one step after the other. Main statements: a run ends in
-- an error exactly if one of its steps does, behind steps that succeed, and in a result if none
-- does.
import Mathlib.Data.List.Forall2

namespace Ingress

section Outcome

variable {ε α β : Type} {as : List α} {e : ε}

/-! ## One step -/

theorem ok_of_bind {x : Except ε α} {f : α → Except ε β} {b : β}
    (h : (x >>= f) = .ok b) : ∃ a, x = .ok a ∧ f a = .ok b := by
  cases x with
  | error e => cases h
  | ok a => exact ⟨a, rfl, h⟩

theorem bind_eq_error_iff {x : Except ε α} {f : α → Except ε β} :
    (x >>= f) = .error e ↔ x = .error e ∨ ∃ a, x = .ok a ∧ f a = .error e := by
  cases x with
  | error e' => simp [bind, Except.bind]
  | ok a => simp [bind, Except.bind]

/-! ## Many steps -/

/-- A place in a list is at its head or behind it. -/
theorem exists_split_cons_iff {P : List α → α → List α → Prop} {x : α} :
    (∃ before a after, x :: as = before ++ a :: after ∧ P before a after) ↔
      P [] x as ∨ ∃ before a after, as = before ++ a :: after ∧ P (x :: before) a after := by
  constructor
  · rintro ⟨before, a, after, hsplit, h⟩
    cases before with
    | nil =>
      obtain ⟨rfl, rfl⟩ := List.cons.inj hsplit
      exact .inl h
    | cons y before =>
      obtain ⟨rfl, rfl⟩ := List.cons.inj hsplit
      exact .inr ⟨before, a, after, rfl, h⟩
  · rintro (h | ⟨before, a, after, rfl, h⟩)
    · exact ⟨[], x, as, rfl, h⟩
    · exact ⟨x :: before, a, after, rfl, h⟩

/-- A run ends in an error exactly if one of its steps does, behind steps that succeed. -/
theorem foldlM_eq_error_iff {f : β → α → Except ε β} {b : β} :
    as.foldlM f b = .error e ↔ ∃ before a after, as = before ++ a :: after ∧
      ∃ mid, before.foldlM f b = .ok mid ∧ f mid a = .error e := by
  induction as generalizing b with
  | nil => simp [pure, Except.pure]
  | cons x as ih =>
    rw [List.foldlM_cons, bind_eq_error_iff, exists_split_cons_iff]
    refine or_congr (by simp [pure, Except.pure]) ?_
    constructor
    · rintro ⟨next, hx, hrest⟩
      obtain ⟨before, a, after, rfl, mid, hbefore, ha⟩ := ih.mp hrest
      refine ⟨before, a, after, rfl, mid, ?_, ha⟩
      rw [List.foldlM_cons, hx]
      exact hbefore
    · rintro ⟨before, a, after, rfl, mid, hbefore, ha⟩
      obtain ⟨next, hx, hrest⟩ := ok_of_bind hbefore
      exact ⟨next, hx, ih.mpr ⟨before, a, after, rfl, mid, hrest, ha⟩⟩

/-- Steps that do not depend on each other give a result each. -/
theorem mapM_eq_ok_iff {f : α → Except ε β} {bs : List β} :
    as.mapM f = .ok bs ↔ List.Forall₂ (fun a b => f a = .ok b) as bs := by
  induction as generalizing bs with
  | nil =>
    rw [List.mapM_nil, List.forall₂_nil_left_iff]
    exact ⟨fun h => (Except.ok.inj h).symm, fun h => congrArg Except.ok h.symm⟩
  | cons a as ih =>
    rw [List.mapM_cons]
    constructor
    · intro h
      obtain ⟨b, hb, hrest⟩ := ok_of_bind h
      obtain ⟨rest, has, hbs⟩ := ok_of_bind hrest
      cases hbs
      exact .cons hb (ih.mp has)
    · intro h
      cases h with
      | cons hb hrest =>
        rw [hb, ih.mpr hrest]
        rfl

theorem mapM_eq_error_iff {f : α → Except ε β} : as.mapM f = .error e ↔
    ∃ before a after, as = before ++ a :: after ∧ (∀ x ∈ before, ∃ b, f x = .ok b) ∧
      f a = .error e := by
  induction as with
  | nil => simp [pure, Except.pure]
  | cons x as ih =>
    rw [List.mapM_cons, bind_eq_error_iff, exists_split_cons_iff]
    refine or_congr (by simp) ?_
    constructor
    · rintro ⟨b, hx, hrest⟩
      rcases bind_eq_error_iff.mp hrest with has | ⟨bs, -, hbs⟩
      · obtain ⟨before, a, after, rfl, hbefore, ha⟩ := ih.mp has
        exact ⟨before, a, after, rfl, List.forall_mem_cons.mpr ⟨⟨b, hx⟩, hbefore⟩, ha⟩
      · cases hbs
    · rintro ⟨before, a, after, rfl, hbefore, ha⟩
      obtain ⟨⟨b, hx⟩, hrest⟩ := List.forall_mem_cons.mp hbefore
      refine ⟨b, hx, bind_eq_error_iff.mpr (.inl ?_)⟩
      exact ih.mpr ⟨before, a, after, rfl, hrest, ha⟩

end Outcome

end Ingress
