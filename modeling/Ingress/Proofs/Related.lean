-- Lists that are related element by element, and lists with their elements in another order.
import Mathlib.Data.List.FinRange
import Mathlib.Data.List.Forall2

namespace Ingress

section Related

variable {α β γ : Type} {R : α → β → Prop} {as : List α} {bs : List β} {cs : List γ}

theorem map_eq_of_forall₂ {f : α → γ} {g : β → γ} (h : List.Forall₂ R as bs)
    (hR : ∀ a b, R a b → f a = g b) : as.map f = bs.map g := by
  induction h with
  | nil => rfl
  | @cons a b as bs hab _ ih => rw [List.map_cons, List.map_cons, hR a b hab, ih]

theorem filter_eq_of_forall₂ {R : α → α → Prop} {as bs : List α} {p : α → Bool}
    (h : List.Forall₂ R as bs) (hp : ∀ a b, R a b → p a = p b)
    (heq : ∀ a b, R a b → p a = true → a = b) : as.filter p = bs.filter p := by
  induction h with
  | nil => rfl
  | @cons a b as bs hab _ ih =>
    rw [List.filter_cons, List.filter_cons, ← hp a b hab, ih]
    split
    · next ha => rw [heq a b hab ha]
    · rfl

theorem exists_mem_of_forall₂ (h : List.Forall₂ R as bs) {a : α} (ha : a ∈ as) :
    ∃ b ∈ bs, R a b := by
  induction h with
  | nil => cases ha
  | @cons x b as bs hxb _ ih =>
    rcases List.mem_cons.mp ha with rfl | hmem
    · exact ⟨b, List.mem_cons_self, hxb⟩
    · obtain ⟨b', hb', hab⟩ := ih hmem
      exact ⟨b', List.mem_cons_of_mem b hb', hab⟩

/-- What two lists have in common with a third relates them to each other. -/
theorem forall₂_of_common {S : α → γ → Prop} {T : β → γ → Prop}
    (h : ∀ a b c, R a b → S a c → T b c) (hR : List.Forall₂ R as bs) (hS : List.Forall₂ S as cs) :
    List.Forall₂ T bs cs := by
  induction hR generalizing cs with
  | nil =>
    cases hS
    exact .nil
  | cons hab _ ih =>
    cases hS with
    | cons hac hrest => exact .cons (h _ _ _ hab hac) (ih hrest)

theorem forall₂_of_mapM {f : α → Option β} (h : as.mapM f = some bs) :
    List.Forall₂ (fun a b => f a = some b) as bs := by
  induction as generalizing bs with
  | nil =>
    rw [← Option.some.inj h]
    exact .nil
  | cons a as ih =>
    simp only [List.mapM_cons, Option.bind_eq_bind, Option.bind_eq_some_iff, Option.pure_def,
      Option.some.injEq] at h
    obtain ⟨b, hb, rest, hrest, rfl⟩ := h
    exact .cons hb (ih hrest)

theorem mapM_eq_some_map {f : α → Option β} {g : α → β} (h : ∀ a ∈ as, f a = some (g a)) :
    as.mapM f = some (as.map g) := by
  induction as with
  | nil => rfl
  | cons a as ih =>
    obtain ⟨hhead, hrest⟩ := List.forall_mem_cons.mp h
    rw [List.mapM_cons, hhead, ih hrest]
    rfl

theorem mapM_eq_none_of_mem {f : α → Option β} {a : α} (ha : a ∈ as) (h : f a = none) :
    as.mapM f = none := by
  induction as with
  | nil => cases ha
  | cons b as ih =>
    rw [List.mapM_cons]
    rcases List.mem_cons.mp ha with rfl | hmem
    · rw [h]
      rfl
    · rw [ih hmem]
      cases f b <;> rfl

theorem of_mem_zip_map {f : α → β} {p : α × β} (h : p ∈ as.zip (as.map f)) :
    p.1 ∈ as ∧ p.2 = f p.1 := by
  have hall : List.Forall₂ (fun a b => a ∈ as ∧ b = f a) as (as.map f) :=
    List.forall₂_map_right_iff.mpr (List.forall₂_same.mpr fun a ha => ⟨ha, rfl⟩)
  exact (List.forall₂_iff_zip.mp hall).2 h

end Related

section Reordered

variable {α β : Type} (as : List α) (σ : Equiv.Perm (Fin as.length))

/-- The elements of a list in another order: at each place the one from the place that `σ` gives. -/
def reordered : List α := List.ofFn (as.get ∘ σ)

theorem reordered_perm : (reordered as σ).Perm as := by
  have hperm := σ.ofFn_comp_perm as.get
  rwa [List.ofFn_get] at hperm

theorem getElem?_map_reordered (f : α → β) (i : Fin as.length) :
    ((reordered as σ).map f)[(i : Nat)]? = (as.map f)[(σ i : Nat)]? := by
  have hi : (reordered as σ)[(i : Nat)]? = some (as.get (σ i)) := by
    simp [reordered]
  rw [List.getElem?_map, hi, List.getElem?_map, List.getElem?_eq_getElem (σ i).isLt]
  rfl

end Reordered

end Ingress
