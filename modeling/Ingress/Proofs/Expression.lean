-- Balance expressions as texts. Commas divide the entries and equals signs the fields of an entry,
-- so a group can be written as an entry if its label and its value have neither. Main statement: an
-- expression is read as one group for each entry, groups are read as they are written, and an
-- expression is refused exactly for its first entry without three fields or without a weight.
import Ingress.Balance.Expression
import Ingress.Proofs.Decimal
import Ingress.Proofs.Outcome
import Ingress.Proofs.Related

namespace Ingress

/-! ## Written groups -/

/-- The entry of three fields. -/
def entryOf (label value weight : List Char) : List Char :=
  label ++ '=' :: (value ++ '=' :: weight)

/-- A group as an entry, with its weight in decimal notation. -/
def BalanceGroup.entry (g : BalanceGroup) : List Char :=
  entryOf g.label.toList g.value.toList g.weight.repr.toList

/-- The expression of some groups. -/
def balanceText (groups : List BalanceGroup) : String :=
  String.ofList (Text.join ',' (groups.map (·.entry)))

/-- A group that an entry can be written for. -/
structure BalanceGroup.Writable (g : BalanceGroup) : Prop where
  label : ∀ c ∈ g.label.toList, c ≠ ',' ∧ c ≠ '='
  value : ∀ c ∈ g.value.toList, c ≠ ',' ∧ c ≠ '='
  weight : Text.IsInteger64 g.weight

/-! ## Entries -/

/-- An entry stands for a group if it has the label, the value and a literal of the weight of the
group as its fields. -/
def StandsFor (entry : List Char) (g : BalanceGroup) : Prop :=
  ∃ weight, entry = entryOf g.label.toList g.value.toList weight ∧
    '=' ∉ g.label.toList ∧ '=' ∉ g.value.toList ∧
    Text.IntegerLiteral weight g.weight ∧ Text.IsInteger64 g.weight

/-- What an entry is refused for: it has not three fields, or its third is no integer of 64 bits. -/
inductive EntryFault : List Char → BalanceError → Prop
  | format {entry : List Char} : entry.count '=' ≠ 2 →
      EntryFault entry (.invalidFormat (String.ofList entry))
  | weight {label value weight : List Char} {error : Text.IntegerError} :
      '=' ∉ label → '=' ∉ value → '=' ∉ weight →
      (∀ n, Text.IntegerLiteral weight n → ¬Text.IsInteger64 n) →
      Text.readInteger weight = .error error →
      EntryFault (entryOf label value weight) (.invalidWeight error)

section Entry

variable {entry label value weight : List Char} {g : BalanceGroup} {error : BalanceError}

theorem split_entry_eq_iff : Text.split '=' entry = [label, value, weight] ↔
    entry = entryOf label value weight ∧ '=' ∉ label ∧ '=' ∉ value ∧ '=' ∉ weight := by
  have hjoin : Text.join '=' [label, value, weight] = entryOf label value weight := rfl
  rw [Text.split_eq_iff, hjoin]
  constructor
  · rintro ⟨-, hfields, rfl⟩
    exact ⟨rfl, by simpa using hfields⟩
  · rintro ⟨rfl, hfields⟩
    exact ⟨List.cons_ne_nil _ _, by simpa using hfields, rfl⟩

/-- An entry with two equals signs has three fields. -/
theorem exists_fields_of_count (h : entry.count '=' = 2) : ∃ label value weight,
    Text.split '=' entry = [label, value, weight] := by
  have hlength := Text.length_split '=' entry
  rw [h] at hlength
  exact List.length_eq_three.mp hlength

theorem readBalanceEntry_entryOf (hlabel : '=' ∉ label) (hvalue : '=' ∉ value)
    (hweight : '=' ∉ weight) : readBalanceEntry (entryOf label value weight) =
      match Text.readInteger weight with
      | .ok n => .ok ⟨String.ofList label, String.ofList value, n⟩
      | .error error => .error (.invalidWeight error) := by
  have hfields : Text.split '=' (entryOf label value weight) = [label, value, weight] :=
    split_entry_eq_iff.mpr ⟨rfl, hlabel, hvalue, hweight⟩
  cases hread : Text.readInteger weight <;> simp [readBalanceEntry, hfields, hread]

theorem readBalanceEntry_of_count_ne (h : entry.count '=' ≠ 2) :
    readBalanceEntry entry = .error (.invalidFormat (String.ofList entry)) := by
  unfold readBalanceEntry
  split
  · next hfields =>
    have hlength := Text.length_split '=' entry
    rw [hfields] at hlength
    exact absurd (Nat.succ.inj hlength).symm h
  · rfl

theorem readBalanceEntry_of_standsFor (h : StandsFor entry g) : readBalanceEntry entry = .ok g := by
  obtain ⟨weight, rfl, hlabel, hvalue, hliteral, hrange⟩ := h
  have hweight : '=' ∉ weight := hliteral.not_mem (by decide) (by decide) (by decide)
  rw [readBalanceEntry_entryOf hlabel hvalue hweight,
    Text.readInteger_eq_ok_iff.mpr ⟨hliteral, hrange⟩]
  simp only [String.ofList_toList]

theorem readBalanceEntry_of_fault (h : EntryFault entry error) :
    readBalanceEntry entry = .error error := by
  cases h with
  | format hcount => exact readBalanceEntry_of_count_ne hcount
  | weight hlabel hvalue hweight _ hread =>
    rw [readBalanceEntry_entryOf hlabel hvalue hweight, hread]

/-- Every entry stands for a group or has a fault. -/
theorem standsFor_or_fault (entry : List Char) :
    (∃ g, StandsFor entry g) ∨ ∃ error, EntryFault entry error := by
  by_cases hcount : entry.count '=' = 2
  · obtain ⟨label, value, weight, hfields⟩ := exists_fields_of_count hcount
    obtain ⟨rfl, hlabel, hvalue, hweight⟩ := split_entry_eq_iff.mp hfields
    cases hread : Text.readInteger weight with
    | ok n =>
      obtain ⟨hliteral, hrange⟩ := Text.readInteger_eq_ok_iff.mp hread
      refine .inl ⟨⟨String.ofList label, String.ofList value, n⟩, weight, ?_⟩
      simpa only [String.toList_ofList, true_and] using ⟨hlabel, hvalue, hliteral, hrange⟩
    | error error =>
      refine .inr ⟨_, .weight hlabel hvalue hweight ?_ hread⟩
      intro n hliteral hrange
      rw [Text.readInteger_eq_ok_iff.mpr ⟨hliteral, hrange⟩] at hread
      cases hread
  · exact .inr ⟨_, .format hcount⟩

theorem readBalanceEntry_eq_ok_iff : readBalanceEntry entry = .ok g ↔ StandsFor entry g := by
  refine ⟨fun h => ?_, readBalanceEntry_of_standsFor⟩
  rcases standsFor_or_fault entry with ⟨g', hg'⟩ | ⟨error, herror⟩
  · rw [readBalanceEntry_of_standsFor hg'] at h
    exact Except.ok.inj h ▸ hg'
  · rw [readBalanceEntry_of_fault herror] at h
    cases h

theorem readBalanceEntry_eq_error_iff :
    readBalanceEntry entry = .error error ↔ EntryFault entry error := by
  refine ⟨fun h => ?_, readBalanceEntry_of_fault⟩
  rcases standsFor_or_fault entry with ⟨g, hg⟩ | ⟨error', herror⟩
  · rw [readBalanceEntry_of_standsFor hg] at h
    cases h
  · rw [readBalanceEntry_of_fault herror] at h
    exact Except.error.inj h ▸ herror

theorem exists_standsFor_iff : (∃ g, StandsFor entry g) ↔ ∀ error, ¬EntryFault entry error := by
  constructor
  · rintro ⟨g, hg⟩ error herror
    have hread := readBalanceEntry_of_fault herror
    rw [readBalanceEntry_of_standsFor hg] at hread
    cases hread
  · exact fun h => (standsFor_or_fault entry).resolve_right fun ⟨error, herror⟩ => h error herror

end Entry

/-! ## Expressions -/

section Expressions

variable {s : String} {groups : List BalanceGroup}

theorem readBalance_eq_ok_iff :
    readBalance s = .ok groups ↔ List.Forall₂ StandsFor (Text.split ',' s.toList) groups := by
  rw [readBalance, mapM_eq_ok_iff]
  simp only [readBalanceEntry_eq_ok_iff]

theorem readBalance_eq_error_iff {error : BalanceError} : readBalance s = .error error ↔
    ∃ before entry after, Text.split ',' s.toList = before ++ entry :: after ∧
      (∀ x ∈ before, ∀ error', ¬EntryFault x error') ∧ EntryFault entry error := by
  rw [readBalance, mapM_eq_error_iff]
  simp only [readBalanceEntry_eq_ok_iff, readBalanceEntry_eq_error_iff, exists_standsFor_iff]

theorem exists_error_iff : (∃ error, readBalance s = .error error) ↔
    ∃ entry ∈ Text.split ',' s.toList, ∃ error, EntryFault entry error := by
  constructor
  · rintro ⟨error, h⟩
    obtain ⟨before, entry, after, hsplit, -, hfault⟩ := readBalance_eq_error_iff.mp h
    exact ⟨entry, by simp [hsplit], error, hfault⟩
  · rintro ⟨entry, hentry, error, hfault⟩
    cases hread : readBalance s with
    | error e => exact ⟨e, rfl⟩
    | ok groups =>
      obtain ⟨g, -, hg⟩ := exists_mem_of_forall₂ (readBalance_eq_ok_iff.mp hread) hentry
      exact absurd hfault (exists_standsFor_iff.mp ⟨g, hg⟩ error)

theorem standsFor_entry {g : BalanceGroup} (h : g.Writable) : StandsFor g.entry g :=
  ⟨_, rfl, fun hmem => (h.label '=' hmem).2 rfl, fun hmem => (h.value '=' hmem).2 rfl,
    Text.integerLiteral_repr g.weight, h.weight⟩

theorem comma_not_mem_entry {g : BalanceGroup} (h : g.Writable) : ',' ∉ g.entry := by
  have hlabel : ',' ∉ g.label.toList := fun hmem => (h.label ',' hmem).1 rfl
  have hvalue : ',' ∉ g.value.toList := fun hmem => (h.value ',' hmem).1 rfl
  have hweight : ',' ∉ g.weight.repr.toList :=
    (Text.integerLiteral_repr g.weight).not_mem (by decide) (by decide) (by decide)
  simp [BalanceGroup.entry, entryOf, hlabel, hvalue, hweight]

/-- Groups are read as they are written. -/
theorem readBalance_balanceText (hne : groups ≠ []) (h : ∀ g ∈ groups, g.Writable) :
    readBalance (balanceText groups) = .ok groups := by
  have hentries : Text.split ',' (balanceText groups).toList = groups.map (·.entry) := by
    rw [balanceText, String.toList_ofList]
    refine Text.split_join (by simpa using hne) ?_
    exact List.forall_mem_map.mpr fun g hg => comma_not_mem_entry (h g hg)
  rw [readBalance_eq_ok_iff, hentries, List.forall₂_map_left_iff, List.forall₂_same]
  exact fun g hg => standsFor_entry (h g hg)

/-- A group that was read can be written. -/
theorem writable_of_readBalance (h : readBalance s = .ok groups) : ∀ g ∈ groups, g.Writable := by
  intro g hg
  obtain ⟨entry, hentry, hstands⟩ := exists_mem_of_forall₂ (readBalance_eq_ok_iff.mp h).flip hg
  obtain ⟨weight, rfl, hlabel, hvalue, -, hrange⟩ := hstands
  have hcomma := Text.not_mem_of_mem_split hentry
  refine ⟨fun c hc => ⟨?_, ?_⟩, fun c hc => ⟨?_, ?_⟩, hrange⟩
  · rintro rfl
    exact hcomma (by simp [entryOf, hc])
  · rintro rfl
    exact hlabel hc
  · rintro rfl
    exact hcomma (by simp [entryOf, hc])
  · rintro rfl
    exact hvalue hc

theorem ne_nil_of_readBalance (h : readBalance s = .ok groups) : groups ≠ [] := by
  rintro rfl
  have hnil := List.forall₂_nil_right_iff.mp (readBalance_eq_ok_iff.mp h)
  exact Text.split_ne_nil ',' s.toList hnil

/-- Groups whose labels and values have neither commas nor equals signs are read from the expression
that is written for them. An expression is read as one group for each of its entries, and these can
be written again. It is refused if one of its entries is at fault, and then for the first one. -/
theorem expressions_are_read_entry_by_entry (s : String) :
    (∀ groups, groups ≠ [] → (∀ g ∈ groups, g.Writable) →
      readBalance (balanceText groups) = .ok groups) ∧
    (∀ groups, readBalance s = .ok groups → groups ≠ [] ∧
      List.Forall₂ StandsFor (Text.split ',' s.toList) groups ∧
      readBalance (balanceText groups) = .ok groups) ∧
    ((∃ error, readBalance s = .error error) ↔
      ∃ entry ∈ Text.split ',' s.toList, ∃ error, EntryFault entry error) ∧
    ∀ error, readBalance s = .error error ↔ ∃ before entry after,
      Text.split ',' s.toList = before ++ entry :: after ∧
      (∀ x ∈ before, ∀ error', ¬EntryFault x error') ∧ EntryFault entry error := by
  refine ⟨fun groups => readBalance_balanceText, ?_, exists_error_iff, ?_⟩
  · intro groups h
    have hne := ne_nil_of_readBalance h
    exact ⟨hne, readBalance_eq_ok_iff.mp h, readBalance_balanceText hne (writable_of_readBalance h)⟩
  · exact fun error => readBalance_eq_error_iff

theorem least_weight_is_written_again :
    let groups : List BalanceGroup := [⟨"v", "", 7⟩, ⟨"", "d 1", -9223372036854775808⟩]
    groups ≠ [] ∧ (∀ g ∈ groups, g.Writable) ∧
    readBalance "v==+007,=d 1=-9223372036854775808" = .ok groups ∧
    balanceText groups = "v==7,=d 1=-9223372036854775808" ∧
    readBalance (balanceText groups) = .ok groups := by
  intro groups
  have hwritable : ∀ g ∈ groups, g.Writable := by
    have hfirst : (BalanceGroup.mk "v" "" 7).Writable := ⟨by simp, by simp, by decide⟩
    have hsecond : (BalanceGroup.mk "" "d 1" (-9223372036854775808)).Writable :=
      ⟨by simp, by simp, by decide⟩
    simp [groups, hfirst, hsecond]
  have hread : readBalance "v==+007,=d 1=-9223372036854775808" = .ok groups := by
    decide +kernel
  obtain ⟨hwritten, hagain, -⟩ :=
    expressions_are_read_entry_by_entry "v==+007,=d 1=-9223372036854775808"
  obtain ⟨hne, -, -⟩ := hagain groups hread
  exact ⟨hne, hwritable, hread, by decide +kernel, hwritten groups hne hwritable⟩

-- The entry without three fields stands before the one with a weight beyond 64 bits.
example : readBalance "v=1=5,x,y=1=9223372036854775808" = .error (.invalidFormat "x") := by
  decide +kernel

end Expressions

end Ingress
