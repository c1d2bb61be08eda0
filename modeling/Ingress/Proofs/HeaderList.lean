-- The headers that a text lists. Commas divide the entries and a colon the name of a header from
-- its value, so headers that were read can be written down again. Main statement: the last header
-- of a name decides its value, each entry that is neither a header nor empty is told of, and the
-- headers of a text are read again from the text that lists them.
import Ingress.Feature.ExternalAuth
import Ingress.Proofs.Writes
import Mathlib.Data.List.Basic

namespace Ingress.ExternalAuth

/-! ## Entries -/

/-- The names of headers: 1 to 65535 characters that may stand in one. -/
structure HeaderName (name : List Char) : Prop where
  nonempty : name ≠ []
  short : name.length ≤ 65535
  valid : ∀ c ∈ name, isHeaderChar c = true

/-- An entry holds one colon, behind the name of a header and before its value. -/
structure IsHeader (entry : List Char) (name value : String) : Prop where
  parts : entry = name.toList ++ ':' :: value.toList
  one : entry.count ':' = 1
  named : HeaderName name.toList

theorem isHeaderName_iff {name : List Char} : isHeaderName name = true ↔ HeaderName name := by
  unfold isHeaderName
  rw [Bool.and_eq_true, Bool.and_eq_true, decide_eq_true_iff, decide_eq_true_iff, List.all_eq_true]
  constructor
  · rintro ⟨⟨hne, hshort⟩, hvalid⟩
    exact ⟨hne, hshort, hvalid⟩
  · exact fun h => ⟨⟨h.nonempty, h.short⟩, h.valid⟩

theorem split_colon_eq_iff {entry name value : List Char} :
    Text.split ':' entry = [name, value] ↔
      entry = name ++ ':' :: value ∧ entry.count ':' = 1 := by
  constructor
  · intro h
    have hjoin := Text.join_split ':' entry
    have hlength := Text.length_split ':' entry
    rw [h] at hjoin hlength
    exact ⟨hjoin.symm, (Nat.succ.inj hlength).symm⟩
  · rintro ⟨rfl, hcount⟩
    rw [List.count_append, List.count_cons_self] at hcount
    have hname : ':' ∉ name := List.count_eq_zero.mp (by omega)
    have hvalue : ':' ∉ value := List.count_eq_zero.mp (by omega)
    rw [Text.split_append_cons, Text.split_eq_singleton hname, Text.split_eq_singleton hvalue]
    rfl

theorem readHeader?_eq_some_iff {entry : List Char} {name value : String} :
    readHeader? entry = some (name, value) ↔ IsHeader entry name value := by
  constructor
  · intro h
    unfold readHeader? at h
    split at h
    · next name' value' hfields =>
      split at h
      · next hname =>
        cases h
        obtain ⟨hparts, hone⟩ := split_colon_eq_iff.mp hfields
        refine ⟨?_, hone, ?_⟩
        · rwa [String.toList_ofList, String.toList_ofList]
        · rw [String.toList_ofList]
          exact isHeaderName_iff.mp hname
      · cases h
    · cases h
  · intro h
    unfold readHeader?
    rw [split_colon_eq_iff.mpr ⟨h.parts, h.one⟩]
    simp only [isHeaderName_iff.mpr h.named, if_true, String.ofList_toList]

/-- Whether an entry is a header. -/
def IsHeaderEntry (entry : List Char) : Prop := ∃ name value, IsHeader entry name value

theorem isSome_readHeader?_iff {entry : List Char} :
    (readHeader? entry).isSome = true ↔ IsHeaderEntry entry := by
  rw [Option.isSome_iff_exists, Prod.exists]
  simp only [readHeader?_eq_some_iff, IsHeaderEntry]

instance (entry : List Char) : Decidable (IsHeaderEntry entry) :=
  decidable_of_iff _ isSome_readHeader?_iff

/-! ## Lists of headers -/

/-- A header as an entry. -/
def headerEntry (header : String × String) : List Char :=
  header.1.toList ++ ':' :: header.2.toList

/-- The text that lists the headers of a table. -/
def headerText (headers : Table String) : String :=
  String.ofList (Text.join ',' (headers.entries.map headerEntry))

variable {s name value : String}

theorem any_readHeader?_iff {entry : List Char} :
    (readHeader? entry).any (·.1 = name) = true ↔ ∃ value, IsHeader entry name value := by
  rw [Option.any_eq_true]
  constructor
  · rintro ⟨header, hread, hname⟩
    obtain rfl := of_decide_eq_true hname
    exact ⟨header.2, readHeader?_eq_some_iff.mp hread⟩
  · rintro ⟨value, hheader⟩
    exact ⟨(name, value), readHeader?_eq_some_iff.mpr hheader, decide_eq_true rfl⟩

/-- The last entry that is a header of a name decides the value of the name. -/
theorem find?_readHeaders_eq_some_iff : (readHeaders s).find? name = some value ↔
    ∃ before entry after, headerEntries s = before ++ entry :: after ∧
      IsHeader entry name value ∧ ∀ other ∈ after, ∀ value', ¬IsHeader other name value' := by
  unfold readHeaders
  rw [Table.find?_ofList, ← List.filterMap_reverse, List.find?_filterMap]
  constructor
  · intro h
    obtain ⟨⟨name', value'⟩, hheader, rfl⟩ := Option.map_eq_some_iff.mp h
    obtain ⟨entry, hlast, hread⟩ := Option.bind_eq_some_iff.mp hheader
    obtain ⟨hname, after, before, hsplit, hafter⟩ := List.find?_eq_some_iff_append.mp hlast
    rw [hread, Option.any_some, decide_eq_true_iff] at hname
    subst hname
    refine ⟨before.reverse, entry, after.reverse, ?_, readHeader?_eq_some_iff.mp hread, ?_⟩
    · rw [← List.reverse_inj, hsplit]
      simp
    · intro other hother value'' hheader'
      have hnot := hafter other (List.mem_reverse.mp hother)
      rw [any_readHeader?_iff.mpr ⟨value'', hheader'⟩] at hnot
      cases hnot
  · rintro ⟨before, entry, after, hsplit, hheader, hafter⟩
    have hlast : (headerEntries s).reverse.find? (fun e => (readHeader? e).any (·.1 = name)) =
        some entry := by
      refine List.find?_eq_some_iff_append.mpr ⟨any_readHeader?_iff.mpr ⟨value, hheader⟩,
        after.reverse, before.reverse, by simp [hsplit], fun other hother => ?_⟩
      rw [Bool.not_eq_true', ← Bool.not_eq_true, any_readHeader?_iff]
      rintro ⟨value', hother'⟩
      exact hafter other (List.mem_reverse.mp hother) value' hother'
    rw [hlast, Option.bind_some, readHeader?_eq_some_iff.mpr hheader]
    rfl

theorem headerEvents_eq (origin : Origin) (s : String) : headerEvents origin s =
    ((headerEntries s).filter (¬IsHeaderEntry ·)).map fun entry =>
      .invalidHeader origin (String.ofList entry) := by
  unfold headerEvents
  congr 1
  refine List.filter_congr fun entry _ => ?_
  rw [Bool.eq_iff_iff, decide_eq_true_iff, ← isSome_readHeader?_iff, Option.isNone_iff_eq_none,
    Option.not_isSome_iff_eq_none]

/-- A header that was read is an entry of the text. -/
theorem headerEntry_mem (h : (name, value) ∈ (readHeaders s).entries) :
    headerEntry (name, value) ∈ headerEntries s ∧
      readHeader? (headerEntry (name, value)) = some (name, value) := by
  obtain ⟨before, entry, after, hsplit, hheader, -⟩ :=
    find?_readHeaders_eq_some_iff.mp (Table.find?_eq_some_iff.mpr h)
  have hentry : headerEntry (name, value) = entry := hheader.parts.symm
  rw [hentry, hsplit]
  exact ⟨by simp, readHeader?_eq_some_iff.mpr hheader⟩

theorem mem_headerEntries {entry : List Char} :
    entry ∈ headerEntries s ↔ entry ∈ Text.split ',' s.toList ∧ entry ≠ [] := by
  unfold headerEntries
  rw [List.mem_filter, decide_eq_true_iff]

theorem headerEntries_headerText {headers : Table String}
    (h : ∀ header ∈ headers.entries, ',' ∉ headerEntry header) :
    headerEntries (headerText headers) = headers.entries.map headerEntry := by
  unfold headerEntries headerText
  rw [String.toList_ofList]
  cases hentries : headers.entries with
  | nil => rfl
  | cons header rest =>
    rw [← hentries, Text.split_join (by simp [hentries]) (List.forall_mem_map.mpr h),
      List.filter_eq_self]
    refine List.forall_mem_map.mpr fun header _ => ?_
    simp [headerEntry]

theorem headerEntries_readHeaders (s : String) :
    headerEntries (headerText (readHeaders s)) = (readHeaders s).entries.map headerEntry := by
  refine headerEntries_headerText fun header hheader => ?_
  exact Text.not_mem_of_mem_split (mem_headerEntries.mp (headerEntry_mem hheader).1).1

theorem readHeaders_headerText (s : String) :
    readHeaders (headerText (readHeaders s)) = readHeaders s := by
  have hread : ((readHeaders s).entries.map headerEntry).filterMap readHeader? =
      (readHeaders s).entries := by
    rw [List.filterMap_map]
    exact (List.filterMap_congr fun header hheader => (headerEntry_mem hheader).2).trans
      List.filterMap_some
  have hagain : readHeaders (headerText (readHeaders s)) = .ofList (readHeaders s).entries := by
    rw [readHeaders, headerEntries_readHeaders, hread]
  rw [hagain, Table.ofList_entries]

theorem headerEvents_headerText (origin : Origin) (s : String) :
    headerEvents origin (headerText (readHeaders s)) = [] := by
  rw [headerEvents_eq, headerEntries_readHeaders, List.map_eq_nil_iff, List.filter_eq_nil_iff]
  refine List.forall_mem_map.mpr fun header hheader => ?_
  have hread := readHeader?_eq_some_iff.mp (headerEntry_mem hheader).2
  have hentry : IsHeaderEntry (headerEntry header) := ⟨header.1, header.2, hread⟩
  simp [hentry]

/-! ## The law -/

/-- A name has the value in the last entry that is a header of this name. Each entry that is no
header gives a warning, in the order of the entries. The headers of a text are read again from the
text that lists them, and that without a warning. -/
theorem last_header_of_a_name_counts (origin : Origin) (s : String) :
    let headers := readHeaders s
    (∀ name value, headers.find? name = some value ↔
      ∃ before entry after, headerEntries s = before ++ entry :: after ∧
        IsHeader entry name value ∧ ∀ other ∈ after, ∀ value', ¬IsHeader other name value') ∧
    headerEvents origin s = ((headerEntries s).filter (¬IsHeaderEntry ·)).map (fun entry =>
      .invalidHeader origin (String.ofList entry)) ∧
    (∀ event ∈ headerEvents origin s, event.level = .warn) ∧
    readHeaders (headerText headers) = headers ∧
    headerEvents origin (headerText headers) = [] := by
  intro headers
  refine ⟨fun name value => find?_readHeaders_eq_some_iff, headerEvents_eq origin s, ?_,
    readHeaders_headerText s, headerEvents_headerText origin s⟩
  intro event hevent
  obtain ⟨entry, -, rfl⟩ := List.mem_map.mp hevent
  rfl

/-- A text with two headers, one of them given twice, and three entries that are no headers. -/
def mixedHeaders : String := "X-A:1,,bad,X-A:,X B:2,x-a:3:4,x-a:5"

theorem second_value_replaces_the_first :
    let later := ["X B:2".toList, "x-a:3:4".toList, "x-a:5".toList]
    headerEntries mixedHeaders =
      ["X-A:1".toList, "bad".toList] ++ "X-A:".toList :: later ∧
    IsHeader "X-A:".toList "X-A" "" ∧
    (∀ other ∈ later, ∀ value, ¬IsHeader other "X-A" value) ∧
    (readHeaders mixedHeaders).find? "X-A" = some "" ∧
    .invalidHeader none "x-a:3:4" ∈ headerEvents none mixedHeaders ∧
    (Event.invalidHeader none "x-a:3:4").level = .warn ∧
    readHeaders "X-A:,x-a:5" = readHeaders mixedHeaders := by
  intro later
  obtain ⟨hvalues, -, hlevels, hagain, -⟩ := last_header_of_a_name_counts none mixedHeaders
  have hsplit : headerEntries mixedHeaders =
      ["X-A:1".toList, "bad".toList] ++ "X-A:".toList :: later := by decide +kernel
  have hheader : IsHeader "X-A:".toList "X-A" "" :=
    readHeader?_eq_some_iff.mp (by decide +kernel)
  have hlater : ∀ other ∈ later, ∀ value, ¬IsHeader other "X-A" value := by
    intro other hother value hvalue
    have hnone : ∀ entry ∈ later, (readHeader? entry).any (·.1 = "X-A") = false := by
      decide +kernel
    exact Bool.false_ne_true ((hnone other hother).symm.trans
      (any_readHeader?_iff.mpr ⟨value, hvalue⟩))
  have hfound := (hvalues "X-A" "").mpr ⟨_, _, _, hsplit, hheader, hlater⟩
  have htext : headerText (readHeaders mixedHeaders) = "X-A:,x-a:5" := by decide +kernel
  have htold : .invalidHeader none "x-a:3:4" ∈ headerEvents none mixedHeaders := by
    decide +kernel
  exact ⟨hsplit, hheader, hlater, hfound, htold, hlevels _ htold, by rw [← htext, hagain]⟩

end Ingress.ExternalAuth
