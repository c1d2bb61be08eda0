-- Cutting texts: at every separator, at the first one only, behind a beginning, and into lines.
-- The fields of a text, with the separator between them again, are the text.

namespace Ingress.Text

/-! ## Fields -/

/-- The fields between the separators of a text. A text without one is a single field. -/
def split (sep : Char) : List Char → List (List Char)
  | [] => [[]]
  | c :: cs => if c = sep then [] :: split sep cs else (split sep cs).modifyHead (c :: ·)

theorem split_ne_nil (sep : Char) (cs : List Char) : split sep cs ≠ [] := by
  induction cs with
  | nil => simp [split]
  | cons c cs ih =>
    unfold split
    split
    · simp
    · cases h : split sep cs with
      | nil => exact absurd h ih
      | cons f fs => simp

/-- The fields of a text joined by a separator. -/
def join (sep : Char) : List (List Char) → List Char
  | [] => []
  | [field] => field
  | field :: rest => field ++ sep :: join sep rest

theorem join_split (sep : Char) (cs : List Char) : join sep (split sep cs) = cs := by
  induction cs with
  | nil => rfl
  | cons c cs ih =>
    unfold split
    cases h : split sep cs with
    | nil => exact absurd h (split_ne_nil sep cs)
    | cons f fs =>
      rw [h] at ih
      split
      · next hc => subst hc; simp [join, ih]
      · cases fs with
        | nil => simpa [join] using ih
        | cons g gs => simpa [join] using ih

/-- A separator divides the fields before it from those behind it. -/
theorem split_append_cons (sep : Char) (cs rest : List Char) :
    split sep (cs ++ sep :: rest) = split sep cs ++ split sep rest := by
  induction cs with
  | nil => simp [split]
  | cons c cs ih =>
    rw [List.cons_append, split, split, ih]
    split
    · rfl
    · cases h : split sep cs with
      | nil => exact absurd h (split_ne_nil sep cs)
      | cons f fs => rfl

theorem split_eq_singleton {sep : Char} {field : List Char} (h : sep ∉ field) :
    split sep field = [field] := by
  induction field with
  | nil => rfl
  | cons c cs ih =>
    have hc : c ≠ sep := fun he => h (by simp [he])
    rw [split, if_neg hc, ih fun hm => h (List.mem_cons_of_mem _ hm)]
    rfl

theorem not_mem_of_mem_split {sep : Char} {cs field : List Char} (h : field ∈ split sep cs) :
    sep ∉ field := by
  induction cs generalizing field with
  | nil =>
    rw [split, List.mem_singleton] at h
    simp [h]
  | cons c cs ih =>
    unfold split at h
    split at h
    · rcases List.mem_cons.mp h with rfl | h
      · simp
      · exact ih h
    · next hc =>
      cases hs : split sep cs with
      | nil => exact absurd hs (split_ne_nil sep cs)
      | cons f fs =>
        rw [hs] at h ih
        rcases List.mem_cons.mp h with rfl | h
        · have := ih List.mem_cons_self
          simp [this, Ne.symm hc]
        · exact ih (List.mem_cons_of_mem _ h)

/-- Fields without a separator in them are the fields of the text that they make. -/
theorem split_join {sep : Char} {fields : List (List Char)} (hne : fields ≠ [])
    (h : ∀ field ∈ fields, sep ∉ field) : split sep (join sep fields) = fields := by
  fun_induction join sep fields with
  | case1 => exact absurd rfl hne
  | case2 field => exact split_eq_singleton (h field List.mem_cons_self)
  | case3 field rest hrest ih =>
    obtain ⟨hfield, hfields⟩ := List.forall_mem_cons.mp h
    rw [split_append_cons, split_eq_singleton hfield, ih hrest hfields]
    rfl

theorem split_eq_iff {sep : Char} {cs : List Char} {fields : List (List Char)} :
    split sep cs = fields ↔
      fields ≠ [] ∧ (∀ field ∈ fields, sep ∉ field) ∧ join sep fields = cs := by
  constructor
  · rintro rfl
    exact ⟨split_ne_nil sep cs, fun _ => not_mem_of_mem_split, join_split sep cs⟩
  · rintro ⟨hne, hfields, rfl⟩
    exact split_join hne hfields

theorem length_split (sep : Char) (cs : List Char) :
    (split sep cs).length = cs.count sep + 1 := by
  induction cs with
  | nil => rfl
  | cons c cs ih =>
    unfold split
    split
    · next hc => simp [hc, ih]
    · next hc => simp [hc, ih]

/-! ## The first separator -/

/-- What stands before and after the first separator of a text. -/
def cut (sep : Char) : List Char → Option (List Char × List Char)
  | [] => none
  | c :: cs =>
    if c = sep then some ([], cs) else (cut sep cs).map fun (before, after) => (c :: before, after)

theorem eq_append_of_cut {sep : Char} {cs before after : List Char}
    (h : cut sep cs = some (before, after)) : cs = before ++ sep :: after ∧ sep ∉ before := by
  induction cs generalizing before with
  | nil => simp [cut] at h
  | cons c cs ih =>
    unfold cut at h
    split at h
    · next hc =>
      simp only [Option.some.injEq, Prod.mk.injEq] at h
      obtain ⟨rfl, rfl⟩ := h
      simp [hc]
    · next hc =>
      obtain ⟨⟨b, a⟩, hba, he⟩ := Option.map_eq_some_iff.mp h
      simp only [Prod.mk.injEq] at he
      obtain ⟨rfl, rfl⟩ := he
      obtain ⟨h1, h2⟩ := ih hba
      exact ⟨by simp [h1], by simp [h2, Ne.symm hc]⟩

theorem cut_append {sep : Char} {before : List Char} (h : sep ∉ before) (after : List Char) :
    cut sep (before ++ sep :: after) = some (before, after) := by
  induction before with
  | nil => simp [cut]
  | cons c before ih =>
    have hc : c ≠ sep := fun he => h (by simp [he])
    rw [List.cons_append, cut, if_neg hc, ih fun hm => h (List.mem_cons_of_mem _ hm)]
    rfl

theorem cut_eq_none_iff {sep : Char} {cs : List Char} : cut sep cs = none ↔ sep ∉ cs := by
  induction cs with
  | nil => simp [cut]
  | cons c cs ih =>
    unfold cut
    split
    · next hc => simp [hc]
    · next hc => simp [ih, Ne.symm hc]

/-! ## Beginnings -/

/-- What stands behind a given beginning of a text. -/
def behind? : List Char → List Char → Option (List Char)
  | [], cs => some cs
  | _ :: _, [] => none
  | s :: ss, c :: cs => if s = c then behind? ss cs else none

theorem behind?_eq_some_iff {start cs rest : List Char} :
    behind? start cs = some rest ↔ cs = start ++ rest := by
  induction start generalizing cs with
  | nil => simp [behind?, eq_comm]
  | cons s ss ih =>
    cases cs with
    | nil => simp [behind?]
    | cons c cs =>
      unfold behind?
      split
      · next h => subst h; simp [ih]
      · next h => simp [Ne.symm h]

/-! ## Lines -/

/-- A terminated line without the carriage return at its end. -/
def dropReturn (line : List Char) : List Char :=
  if line.getLast? = some '\r' then line.dropLast else line

/-- The lines given by the fields between line feeds. The last field is a line only if it is not
empty, and keeps a carriage return, because no line feed ends it. -/
def ofFeeds : List (List Char) → List (List Char)
  | [] => []
  | [last] => if last = [] then [] else [last]
  | line :: rest => dropReturn line :: ofFeeds rest

/-- The lines of a text, without their line ends. -/
def lines (cs : List Char) : List (List Char) := ofFeeds (split '\n' cs)

end Ingress.Text
