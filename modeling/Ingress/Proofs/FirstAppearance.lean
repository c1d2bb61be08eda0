-- The values of a list in the order in which they first appear. Main statement: dropping what has
-- appeared before gives the values, each once, by the places of their first appearances, and no
-- other list does.
import Mathlib.Data.List.Induction
import Mathlib.Data.List.Nodup
import Mathlib.Data.List.Perm.Basic

namespace Ingress

variable {α : Type} [DecidableEq α]

theorem eraseDups_concat (values : List α) (value : α) : (values ++ [value]).eraseDups =
    if value ∈ values then values.eraseDups else values.eraseDups ++ [value] := by
  rw [List.eraseDups_append]
  by_cases h : value ∈ values <;> simp [List.removeAll, h, List.eraseDups_cons]

theorem nodup_eraseDups (values : List α) : values.eraseDups.Nodup := by
  induction values using List.reverseRecOn with
  | nil => exact .nil
  | append_singleton values value ih =>
    rw [eraseDups_concat]
    split
    · exact ih
    · next hnew =>
      refine List.nodup_append.mpr ⟨ih, List.pairwise_singleton _ _, ?_⟩
      rintro other hother _ hvalue rfl
      rw [List.mem_singleton.mp hvalue, List.mem_eraseDups] at hother
      exact hnew hother

theorem filter_eraseDups (p : α → Bool) (values : List α) :
    values.eraseDups.filter p = (values.filter p).eraseDups := by
  induction values using List.reverseRecOn with
  | nil => rfl
  | append_singleton values value ih =>
    rw [eraseDups_concat, List.filter_append]
    cases hp : p value with
    | false =>
      rw [List.filter_singleton, hp]
      split <;> simp [hp, ih]
    | true =>
      rw [List.filter_singleton, hp, Bool.cond_true, eraseDups_concat]
      by_cases hmem : value ∈ values <;> simp [hmem, hp, ih]

/-- The values of a list, each once, by the places where they first appear. -/
structure FirstAppearances (values list : List α) : Prop where
  mem : ∀ value, value ∈ values ↔ value ∈ list
  once : values.Nodup
  ordered : values.Pairwise fun value other => list.idxOf value < list.idxOf other

theorem ordered_eraseDups (list : List α) :
    list.eraseDups.Pairwise fun value other => list.idxOf value < list.idxOf other := by
  induction list using List.reverseRecOn with
  | nil => exact .nil
  | append_singleton list last ih =>
    -- what has appeared keeps its place, and a new value comes behind all places
    have hold : ∀ value ∈ list.eraseDups, (list ++ [last]).idxOf value = list.idxOf value :=
      fun value hvalue => List.idxOf_append_of_mem (List.mem_eraseDups.mp hvalue)
    have hbefore : list.eraseDups.Pairwise fun value other =>
        (list ++ [last]).idxOf value < (list ++ [last]).idxOf other := by
      refine ih.imp_of_mem fun {value other} hvalue hother hlt => ?_
      rwa [hold value hvalue, hold other hother]
    rw [eraseDups_concat]
    split
    · exact hbefore
    · next hnew =>
      refine List.pairwise_append.mpr ⟨hbefore, List.pairwise_singleton _ _, ?_⟩
      intro value hvalue other hother
      rw [List.mem_singleton.mp hother, hold value hvalue, List.idxOf_append_of_notMem hnew]
      exact Nat.lt_add_right _ (List.idxOf_lt_length_iff.mpr (List.mem_eraseDups.mp hvalue))

theorem firstAppearances_iff {values list : List α} :
    FirstAppearances values list ↔ values = list.eraseDups := by
  constructor
  · rintro ⟨hmem, honce, hordered⟩
    have hperm : values.Perm list.eraseDups := by
      rw [List.perm_ext_iff_of_nodup honce (nodup_eraseDups list)]
      intro value
      rw [hmem, List.mem_eraseDups]
    exact hperm.eq_of_pairwise (fun _ _ _ _ hlt hgt => absurd hgt (Nat.lt_asymm hlt)) hordered
      (ordered_eraseDups list)
  · rintro rfl
    exact ⟨fun _ => List.mem_eraseDups, nodup_eraseDups list, ordered_eraseDups list⟩

end Ingress
