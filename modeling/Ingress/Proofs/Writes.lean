-- Stores that are filled by one write after the other. Main statement: where a write replaces what
-- it finds, a key has the value of the last write to it, so writes that agree on what stands under
-- a key put it there. Where a write keeps what it finds, a key has the value of the first one.
import Ingress.Table

namespace Ingress

section Writes

variable {σ κ α : Type} [DecidableEq κ] {get : σ → κ → Option α} {write : σ → κ × α → σ}

/-- A write is found under its key and leaves other keys alone. -/
def LastWins (get : σ → κ → Option α) (write : σ → κ × α → σ) : Prop :=
  ∀ s entry key, get (write s entry) key = if key = entry.1 then some entry.2 else get s key

theorem get_foldl_write (h : LastWins get write) (entries : List (κ × α)) (s : σ) (key : κ) :
    get (entries.foldl write s) key =
      ((entries.reverse.find? (·.1 = key)).map (·.2)).or (get s key) := by
  induction entries generalizing s with
  | nil => rfl
  | cons entry entries ih =>
    rw [List.foldl_cons, ih, h, List.reverse_cons, List.find?_append]
    cases entries.reverse.find? (·.1 = key) with
    | some last => rfl
    | none =>
      by_cases hkey : key = entry.1
      · simp [hkey]
      · simp [hkey, Ne.symm hkey]

/-- Where the writes to a key agree, it does not matter which is the last one. -/
theorem get_foldl_write_of_mem_iff (h : LastWins get write) {entries : List (κ × α)} {s : σ}
    {key : κ} {found : Option α} (hnew : get s key = none)
    (hmem : ∀ value, (key, value) ∈ entries ↔ found = some value) :
    get (entries.foldl write s) key = found := by
  rw [get_foldl_write h, hnew, Option.or_none]
  cases hlast : entries.reverse.find? (·.1 = key) with
  | none =>
    cases found with
    | none => rfl
    | some value =>
      have hwritten := List.mem_reverse.mpr ((hmem value).mpr rfl)
      have hother := List.find?_eq_none.mp hlast _ hwritten
      simp at hother
  | some last =>
    obtain ⟨own, value⟩ := last
    have hown := List.find?_some hlast
    obtain rfl : own = key := by simpa using hown
    have hwritten := List.mem_reverse.mp (List.mem_of_find?_eq_some hlast)
    exact ((hmem value).mp hwritten).symm

end Writes

section FirstWrites

variable {σ κ ε α : Type} {get : σ → κ → Option α} {write : σ → ε → σ} {offer : ε → κ → Option α}

/-- A write puts what it offers where nothing was found, and changes nothing else. -/
def FirstWins (get : σ → κ → Option α) (write : σ → ε → σ) (offer : ε → κ → Option α) : Prop :=
  ∀ s entry key, get (write s entry) key = (get s key).or (offer entry key)

theorem get_foldl_of_firstWins (h : FirstWins get write offer) (entries : List ε) (s : σ)
    (key : κ) : get (entries.foldl write s) key =
      (get s key).or (entries.findSome? (offer · key)) := by
  induction entries generalizing s with
  | nil => exact Option.or_none.symm
  | cons entry entries ih =>
    rw [List.foldl_cons, ih, h, List.findSome?_cons, Option.or_assoc]
    cases offer entry key <;> rfl

end FirstWrites

/-! ## Tables -/

namespace Table

variable {α : Type}

theorem lastWins_insert :
    LastWins (find? : Table α → String → Option α) fun t entry => t.insert entry.1 entry.2 :=
  fun t entry key => find?_insert t entry.1 entry.2 key

theorem find?_ofList (entries : List (String × α)) (key : String) :
    (ofList entries).find? key = (entries.reverse.find? (·.1 = key)).map (·.2) := by
  have hlast := get_foldl_write lastWins_insert entries empty key
  rwa [find?_empty, Option.or_none] at hlast

theorem find?_ofList_of_mem_iff {entries : List (String × α)} {key : String} {found : Option α}
    (hmem : ∀ value, (key, value) ∈ entries ↔ found = some value) :
    (ofList entries).find? key = found :=
  get_foldl_write_of_mem_iff lastWins_insert rfl hmem

theorem ofList_entries (t : Table α) : ofList t.entries = t :=
  eq_of_find? fun _ => find?_ofList_of_mem_iff fun _ => find?_eq_some_iff.symm

end Table

end Ingress
