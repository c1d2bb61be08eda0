-- Lists whose elements are told apart by a key.
import Mathlib.Data.List.Nodup

namespace Ingress

variable {α β : Type} {key : α → β} {xs : List α}

theorem mem_keys_iff_any [DecidableEq β] {k : β} :
    k ∈ xs.map key ↔ xs.any (key · = k) = true := by
  rw [List.any_eq_true, List.mem_map]
  simp only [decide_eq_true_eq]

/-- An element with a new key keeps the keys without repetition. -/
theorem nodup_keys_append {x : α} (h : (xs.map key).Nodup) (hnew : key x ∉ xs.map key) :
    ((xs ++ [x]).map key).Nodup := by
  rw [List.map_append, List.map_singleton, ← List.concat_eq_append]
  exact h.concat hnew

/-- Where no key is repeated, an element is what its key finds. -/
theorem find?_key_of_nodup [DecidableEq β] {x : α} (hnodup : (xs.map key).Nodup) (hx : x ∈ xs) :
    xs.find? (key · = key x) = some x := by
  induction xs with
  | nil => cases hx
  | cons y xs ih =>
    obtain ⟨hy, hxs⟩ := List.nodup_cons.mp hnodup
    rcases List.mem_cons.mp hx with rfl | hmem
    · rw [List.find?_cons_of_pos (by simp)]
    · have hne : key y ≠ key x := fun heq => hy (heq ▸ List.mem_map_of_mem hmem)
      rw [List.find?_cons_of_neg (by simpa using hne), ih hxs hmem]

theorem find?_key_eq_some_iff [DecidableEq β] (hnodup : (xs.map key).Nodup) {k : β} {x : α} :
    xs.find? (key · = k) = some x ↔ x ∈ xs ∧ key x = k := by
  constructor
  · intro hfound
    exact ⟨List.mem_of_find?_eq_some hfound, by simpa using List.find?_some hfound⟩
  · rintro ⟨hx, rfl⟩
    exact find?_key_of_nodup hnodup hx

/-- Where no key is repeated, a further condition is asked of the element that the key finds. -/
theorem find?_key_and_of_nodup [DecidableEq β] (hnodup : (xs.map key).Nodup) (k : β)
    (p : α → Bool) : xs.find? (fun x => key x = k && p x) = (xs.find? (key · = k)).filter p := by
  induction xs with
  | nil => rfl
  | cons y xs ih =>
    obtain ⟨hy, hxs⟩ := List.nodup_cons.mp hnodup
    rw [List.find?_cons, List.find?_cons, ih hxs]
    by_cases hkey : key y = k
    · have hnone : xs.find? (key · = k) = none := by
        rw [List.find?_eq_none]
        intro x hx hsame
        exact hy (List.mem_map.mpr ⟨x, hx, (of_decide_eq_true hsame).trans hkey.symm⟩)
      cases hp : p y <;> simp [hkey, hp, hnone, Option.filter]
    · simp [hkey]

end Ingress
