-- Tables from strings to values, listed by key in the order of code points. A key stands at most
-- once, and two tables that find the same values are equal.

namespace Ingress

/-! ## Entries -/

/-- Puts a value under a key into entries listed by key. A value already there is replaced. -/
def insertEntry {α : Type} (key : String) (value : α) : List (String × α) → List (String × α)
  | [] => [(key, value)]
  | entry :: rest =>
    if key < entry.1 then (key, value) :: entry :: rest
    else if key = entry.1 then (key, value) :: rest
    else entry :: insertEntry key value rest

/-- The value under a key. -/
def valueAt? {α : Type} (key : String) : List (String × α) → Option α
  | [] => none
  | entry :: rest => if entry.1 = key then some entry.2 else valueAt? key rest

theorem eq_of_not_lt {a b : String} (h : ¬a < b) (h' : ¬b < a) : a = b :=
  String.le_antisymm (String.not_lt.mp h') (String.not_lt.mp h)

theorem mem_insertEntry {α : Type} {key : String} {value : α} {entries : List (String × α)}
    {entry : String × α} (h : entry ∈ insertEntry key value entries) :
    entry = (key, value) ∨ entry ∈ entries := by
  induction entries with
  | nil => simpa [insertEntry] using h
  | cons e rest ih =>
    unfold insertEntry at h
    split at h
    · simpa using h
    · split at h
      · rcases List.mem_cons.mp h with h | h
        · exact .inl h
        · exact .inr (List.mem_cons_of_mem _ h)
      · rcases List.mem_cons.mp h with h | h
        · exact .inr (h ▸ List.mem_cons_self)
        · exact (ih h).imp_right (List.mem_cons_of_mem _)

theorem insertEntry_pairwise {α : Type} {key : String} {value : α} {entries : List (String × α)}
    (h : entries.Pairwise (·.1 < ·.1)) : (insertEntry key value entries).Pairwise (·.1 < ·.1) := by
  induction entries with
  | nil => simp [insertEntry]
  | cons e rest ih =>
    have hrest := (List.pairwise_cons.mp h).2
    have hhead := (List.pairwise_cons.mp h).1
    unfold insertEntry
    split
    · next hlt =>
      refine List.pairwise_cons.mpr ⟨?_, h⟩
      intro x hx
      rcases List.mem_cons.mp hx with rfl | hx
      · exact hlt
      · exact String.lt_trans hlt (hhead x hx)
    · next hlt =>
      split
      · next heq =>
        subst heq
        exact List.pairwise_cons.mpr ⟨hhead, hrest⟩
      · next hne =>
        refine List.pairwise_cons.mpr ⟨?_, ih hrest⟩
        intro x hx
        rcases mem_insertEntry hx with rfl | hx
        · exact Decidable.byContradiction fun hn => hne (eq_of_not_lt hlt hn)
        · exact hhead x hx

theorem valueAt?_insertEntry {α : Type} (key : String) (value : α) (entries : List (String × α))
    (other : String) : valueAt? other (insertEntry key value entries) =
      if other = key then some value else valueAt? other entries := by
  induction entries with
  | nil => grind [insertEntry, valueAt?]
  | cons e rest ih => grind [insertEntry, valueAt?]

theorem eq_of_mem_iff {α : Type} {s t : List (String × α)} (hs : s.Pairwise (·.1 < ·.1))
    (ht : t.Pairwise (·.1 < ·.1)) (h : ∀ entry, entry ∈ s ↔ entry ∈ t) : s = t := by
  induction s generalizing t with
  | nil =>
    cases t with
    | nil => rfl
    | cons e rest => exact absurd ((h e).mpr List.mem_cons_self) (by simp)
  | cons d s ih =>
    cases t with
    | nil => exact absurd ((h d).mp List.mem_cons_self) (by simp)
    | cons e t =>
      have hs' := List.pairwise_cons.mp hs
      have ht' := List.pairwise_cons.mp ht
      have hde : d = e := by
        rcases List.mem_cons.mp ((h d).mp List.mem_cons_self) with hde | hd
        · exact hde
        · rcases List.mem_cons.mp ((h e).mpr List.mem_cons_self) with hed | he
          · exact hed.symm
          · exact absurd (ht'.1 d hd) (String.lt_asymm (hs'.1 e he))
      subst hde
      refine congrArg (d :: ·) (ih hs'.2 ht'.2 fun x => ⟨fun hx => ?_, fun hx => ?_⟩)
      · rcases List.mem_cons.mp ((h x).mp (List.mem_cons_of_mem _ hx)) with rfl | hx'
        · exact absurd (hs'.1 x hx) (String.lt_irrefl _)
        · exact hx'
      · rcases List.mem_cons.mp ((h x).mpr (List.mem_cons_of_mem _ hx)) with rfl | hx'
        · exact absurd (ht'.1 x hx) (String.lt_irrefl _)
        · exact hx'

/-! ## Tables -/

/-- Values under keys, listed by key. -/
structure Table (α : Type) where
  entries : List (String × α)
  ascending : entries.Pairwise (·.1 < ·.1)

namespace Table

variable {α : Type}

instance [DecidableEq α] : DecidableEq (Table α) := fun s t =>
  decidable_of_iff (s.entries = t.entries) (by cases s; cases t; simp)

/-- The table without entries. -/
def empty : Table α := ⟨[], .nil⟩

instance : Inhabited (Table α) := ⟨empty⟩

/-- The keys, ascending. -/
def keys (t : Table α) : List String := t.entries.map (·.1)

/-- The value under a key. -/
def find? (t : Table α) (key : String) : Option α := valueAt? key t.entries

/-- The table with a value under a key, in place of the one that was there. -/
def insert (t : Table α) (key : String) (value : α) : Table α :=
  ⟨insertEntry key value t.entries, insertEntry_pairwise t.ascending⟩

/-- The table of a list of entries. Of two entries with one key the later one counts. -/
def ofList (entries : List (String × α)) : Table α :=
  entries.foldl (fun t entry => t.insert entry.1 entry.2) empty

@[simp]
theorem find?_empty (key : String) : (empty : Table α).find? key = none := rfl

@[simp]
theorem find?_insert (t : Table α) (key : String) (value : α) (other : String) :
    (t.insert key value).find? other = if other = key then some value else t.find? other :=
  valueAt?_insertEntry key value t.entries other

theorem find?_eq_some_iff {t : Table α} {key : String} {value : α} :
    t.find? key = some value ↔ (key, value) ∈ t.entries := by
  obtain ⟨entries, ascending⟩ := t
  simp only [find?]
  induction entries with
  | nil => simp [valueAt?]
  | cons e rest ih =>
    have hhead := (List.pairwise_cons.mp ascending).1
    have ih := ih (List.pairwise_cons.mp ascending).2
    unfold valueAt?
    split
    · next h =>
      constructor
      · intro hv
        cases hv
        exact List.mem_cons.mpr (.inl (by rw [← h]))
      · intro hm
        rcases List.mem_cons.mp hm with hm | hm
        · rw [← hm]
        · have := hhead _ hm
          rw [h] at this
          exact absurd this (String.lt_irrefl _)
    · next h =>
      rw [ih, List.mem_cons]
      constructor
      · exact .inr
      · rintro (rfl | hm)
        · exact absurd rfl h
        · exact hm

/-- A table has at most one entry of a key. -/
theorem filter_entries (t : Table α) (key : String) :
    t.entries.filter (·.1 = key) = ((t.find? key).map (key, ·)).toList := by
  obtain ⟨entries, ascending⟩ := t
  simp only [find?]
  induction entries with
  | nil => rfl
  | cons e rest ih =>
    obtain ⟨own, value⟩ := e
    obtain ⟨hhead, hrest⟩ := List.pairwise_cons.mp ascending
    by_cases hown : own = key
    · subst hown
      have hnone : rest.filter (·.1 = own) = [] := by
        refine List.filter_eq_nil_iff.mpr fun x hx hkey => ?_
        have hlt := hhead x hx
        rw [of_decide_eq_true hkey] at hlt
        exact String.lt_irrefl _ hlt
      simp only [List.filter_cons, decide_true, if_true, hnone, valueAt?]
      rfl
    · simpa only [List.filter_cons, hown, decide_false, Bool.false_eq_true, if_false, valueAt?]
        using ih hrest

/-- Tables that find the same values are equal. -/
theorem eq_of_find? {s t : Table α} (h : ∀ key, s.find? key = t.find? key) : s = t := by
  have hentries := eq_of_mem_iff s.ascending t.ascending fun (key, value) => by
    rw [← find?_eq_some_iff, ← find?_eq_some_iff, h key]
  cases s
  cases t
  simpa using hentries

end Table

end Ingress
