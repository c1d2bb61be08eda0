-- The annotations that carry the prefix of the controller. The prefix is cut off with one slash,
-- however many it is written with. Main statement: what an annotation is called behind the prefix
-- finds it again under its full key, so no annotation is lost and no two become one.
import Ingress.Key
import Ingress.Proofs.Writes
import Mathlib.Data.List.DropRight

namespace Ingress

/-- What is cut off a key that carries a prefix: the prefix with one slash at its end, or nothing if
the prefix is nothing but slashes. -/
def keyStart (keyPrefix : String) : String :=
  String.ofList (if stem keyPrefix = [] then [] else stem keyPrefix ++ ['/'])

/-- The key under which resources carry an annotation. -/
def fullKey (keyPrefix own : String) : String := keyStart keyPrefix ++ own

variable {keyPrefix key own : String}

theorem fullKey_eq_iff {rest : List Char} : fullKey keyPrefix (String.ofList rest) = key ↔
    Text.behind? (if stem keyPrefix = [] then [] else stem keyPrefix ++ ['/']) key.toList =
      some rest := by
  rw [Text.behind?_eq_some_iff, ← String.toList_inj]
  simp only [fullKey, keyStart, String.toList_append, String.toList_ofList]
  exact eq_comm

theorem ownKey?_eq_some_iff :
    ownKey? keyPrefix key = some own ↔ own ≠ "" ∧ fullKey keyPrefix own = key := by
  obtain ⟨rest, rfl⟩ : ∃ rest, own = String.ofList rest := ⟨own.toList, String.ofList_toList.symm⟩
  have hempty : String.ofList rest = "" ↔ rest = [] := by
    rw [← String.toList_inj, String.toList_ofList, String.toList_empty]
  rw [fullKey_eq_iff, ne_eq, hempty]
  unfold ownKey?
  cases hbehind : Text.behind? (if stem keyPrefix = [] then [] else stem keyPrefix ++ ['/'])
      key.toList with
  | none => simp [hbehind]
  | some found =>
    cases found with
    | nil => simp [hbehind]
    | cons c cs =>
      simp only [hbehind, Option.some.injEq, String.ofList_inj]
      constructor
      · rintro rfl
        exact ⟨List.cons_ne_nil c cs, rfl⟩
      · exact fun h => h.2

theorem find?_ownAnnotations (keyPrefix : String) (raw : Table String) (own : String) :
    (ownAnnotations keyPrefix raw).find? own =
      if own = "" then none else raw.find? (fullKey keyPrefix own) := by
  apply Table.find?_ofList_of_mem_iff
  intro value
  rw [List.mem_filterMap]
  constructor
  · rintro ⟨⟨key, found⟩, hentry, hown⟩
    obtain ⟨own', hown', heq⟩ := Option.map_eq_some_iff.mp hown
    cases heq
    obtain ⟨hne, rfl⟩ := ownKey?_eq_some_iff.mp hown'
    rw [if_neg hne]
    exact Table.find?_eq_some_iff.mpr hentry
  · intro hfound
    split at hfound
    · cases hfound
    · next hne =>
      refine ⟨(fullKey keyPrefix own, value), Table.find?_eq_some_iff.mp hfound, ?_⟩
      exact Option.map_eq_some_iff.mpr ⟨own, ownKey?_eq_some_iff.mpr ⟨hne, rfl⟩, rfl⟩

theorem find?_ownAnnotations_eq_some_iff {raw : Table String} {value : String} :
    (ownAnnotations keyPrefix raw).find? own = some value ↔
      own ≠ "" ∧ raw.find? (fullKey keyPrefix own) = some value := by
  rw [find?_ownAnnotations]
  split
  · next hempty => exact ⟨nofun, fun h => absurd hempty h.1⟩
  · next hne => exact (and_iff_right hne).symm

/-! ## Slashes at the end of a prefix -/

/-- Slashes, as a prefix may have them at its end. -/
def slashes (n : Nat) : String := String.ofList (List.replicate n '/')

theorem rdropWhile_append_slashes (front : List Char) (n : Nat) :
    (front ++ List.replicate n '/').rdropWhile (· = '/') = front.rdropWhile (· = '/') := by
  induction n with
  | zero => rw [List.replicate_zero, List.append_nil]
  | succ n ih =>
    rw [List.replicate_succ', ← List.append_assoc, List.rdropWhile_concat_pos _ _ _ (by simp), ih]

theorem getLast?_stem {c : Char} (h : (stem keyPrefix).getLast? = some c) : c ≠ '/' := by
  unfold stem at h
  rw [List.getLast?_reverse] at h
  have hhead := List.head?_dropWhile_not (· = '/') keyPrefix.toList.reverse
  rw [h] at hhead
  simpa using hhead

theorem stem_eq_iff {front : List Char} : stem keyPrefix = front ↔
    front.getLast? ≠ some '/' ∧ ∃ n, keyPrefix.toList = front ++ List.replicate n '/' := by
  have hstem : stem keyPrefix = keyPrefix.toList.rdropWhile (· = '/') := rfl
  constructor
  · rintro rfl
    refine ⟨fun hlast => getLast?_stem hlast rfl,
      (keyPrefix.toList.rtakeWhile (· = '/')).length, ?_⟩
    have hslash : ∀ c ∈ keyPrefix.toList.rtakeWhile (· = '/'), c = '/' := fun c hc => by
      simpa using List.mem_rtakeWhile_imp hc
    rw [← List.eq_replicate_of_mem hslash]
    exact List.rdropWhile_append_rtakeWhile.symm
  · rintro ⟨hlast, n, h⟩
    rw [hstem, h, rdropWhile_append_slashes, List.rdropWhile_eq_self_iff]
    intro hne hslash
    rw [List.getLast?_eq_some_getLast hne] at hlast
    exact hlast (congrArg some (of_decide_eq_true hslash))

theorem stem_append_slashes (n : Nat) : stem (keyPrefix ++ slashes n) = stem keyPrefix := by
  unfold stem slashes
  rw [String.toList_append, String.toList_ofList]
  exact rdropWhile_append_slashes keyPrefix.toList n

/-- Only the stem of a prefix counts. -/
theorem ownAnnotations_congr {other : String} (h : stem keyPrefix = stem other)
    (raw : Table String) : ownAnnotations keyPrefix raw = ownAnnotations other raw := by
  unfold ownAnnotations ownKey?
  rw [h]

/-! ## Prefixes that say what is cut off -/

theorem append_eq_fullKey_iff :
    keyPrefix ++ own = fullKey keyPrefix own ↔ keyPrefix = keyStart keyPrefix := by
  unfold fullKey
  rw [← String.toList_inj, ← String.toList_inj, String.toList_append, String.toList_append]
  exact List.append_left_inj own.toList

/-- A prefix with exactly one slash at its end, behind something else. -/
def EndsInOneSlash (keyPrefix : String) : Prop :=
  ∃ front c, c ≠ '/' ∧ keyPrefix.toList = front ++ [c, '/']

theorem eq_keyStart_iff :
    keyPrefix = keyStart keyPrefix ↔ keyPrefix = "" ∨ EndsInOneSlash keyPrefix := by
  rw [← String.toList_inj, keyStart, String.toList_ofList]
  constructor
  · intro h
    split at h
    · exact .inl (String.toList_eq_nil_iff.mp h)
    · next hne =>
      have hsplit := List.dropLast_concat_getLast hne
      refine .inr ⟨(stem keyPrefix).dropLast, (stem keyPrefix).getLast hne, ?_, ?_⟩
      · exact getLast?_stem (List.getLast?_eq_some_getLast hne)
      · calc keyPrefix.toList
          _ = stem keyPrefix ++ ['/'] := h
          _ = ((stem keyPrefix).dropLast ++ [(stem keyPrefix).getLast hne]) ++ ['/'] := by
            rw [hsplit]
          _ = _ := List.append_assoc _ _ _
  · rintro (rfl | ⟨front, c, hc, h⟩)
    · rfl
    · have hstem : stem keyPrefix = front ++ [c] := by
        refine stem_eq_iff.mpr ⟨by simpa using hc, 1, ?_⟩
        rw [h, List.append_assoc]
        rfl
      rw [hstem, if_neg (by simp), h]
      simp

/-! ## The annotations that are kept -/

/-- A key that goes on behind a start. -/
def IsBehind (start key : String) : Prop := ∃ own, own ≠ "" ∧ start ++ own = key

instance (start key : String) : Decidable (IsBehind start key) :=
  decidable_of_iff ((Text.behind? start.toList key.toList).any (· ≠ [])) (by
    simp only [Option.any_eq_true, decide_eq_true_eq, Text.behind?_eq_some_iff, IsBehind]
    constructor
    · rintro ⟨rest, hkey, hne⟩
      exact ⟨String.ofList rest, by simpa using hne, String.toList_inj.mp (by simp [hkey])⟩
    · rintro ⟨own, hne, rfl⟩
      exact ⟨own.toList, String.toList_append, by simpa using hne⟩)

theorem fullKey_lt {other : String} (h : own < other) :
    fullKey keyPrefix own < fullKey keyPrefix other := by
  unfold fullKey
  rw [String.lt_iff] at h ⊢
  rw [String.toList_append, String.toList_append]
  exact List.append_left_lt h

/-- With their full keys again, the annotations that are kept are the raw ones that carry the
prefix, in the same order. -/
theorem map_fullKey_ownAnnotations (keyPrefix : String) (raw : Table String) :
    (ownAnnotations keyPrefix raw).entries.map (fun e => (fullKey keyPrefix e.1, e.2)) =
      raw.entries.filter fun e => IsBehind (keyStart keyPrefix) e.1 := by
  apply eq_of_mem_iff
  · exact List.pairwise_map.mpr ((ownAnnotations keyPrefix raw).ascending.imp fullKey_lt)
  · exact raw.ascending.filter _
  · rintro ⟨key, value⟩
    simp only [List.mem_map, List.mem_filter, decide_eq_true_eq, Prod.mk.injEq, Prod.exists,
      ← Table.find?_eq_some_iff, find?_ownAnnotations_eq_some_iff]
    constructor
    · rintro ⟨own, _, ⟨hne, hfound⟩, rfl, rfl⟩
      exact ⟨hfound, own, hne, rfl⟩
    · rintro ⟨hfound, own, hne, rfl⟩
      exact ⟨own, value, ⟨hne, hfound⟩, rfl, rfl⟩

theorem length_keys_ownAnnotations (keyPrefix : String) (raw : Table String) :
    (ownAnnotations keyPrefix raw).keys.length =
      raw.keys.countP (IsBehind (keyStart keyPrefix)) := by
  have hentries := congrArg List.length (map_fullKey_ownAnnotations keyPrefix raw)
  rw [List.length_map, ← List.countP_eq_length_filter] at hentries
  rw [Table.keys, List.length_map, hentries, Table.keys, List.countP_map, Function.comp_def]

/-- A prefix without the slashes at its end. -/
def withoutSlashes (keyPrefix : String) : String := String.ofList (stem keyPrefix)

theorem eq_withoutSlashes_iff {p : String} : p = withoutSlashes keyPrefix ↔
    p.toList.getLast? ≠ some '/' ∧ ∃ n, keyPrefix = p ++ slashes n := by
  rw [withoutSlashes, ← String.toList_inj, String.toList_ofList, eq_comm, stem_eq_iff]
  refine and_congr_right fun _ => exists_congr fun n => ?_
  rw [← String.toList_inj, String.toList_append, slashes, String.toList_ofList]

theorem keyStart_eq : keyStart keyPrefix =
    if withoutSlashes keyPrefix = "" then "" else withoutSlashes keyPrefix ++ "/" := by
  have hempty : withoutSlashes keyPrefix = "" ↔ stem keyPrefix = [] := by
    rw [withoutSlashes, ← String.toList_inj, String.toList_ofList, String.toList_empty]
  simp only [keyStart, hempty]
  split
  · rfl
  · exact String.ofList_append

/-- With `p` the prefix without the slashes at its end, exactly the annotations whose keys go on
behind `p` and one slash are kept, under what their keys go on with. If there were only slashes, all
annotations with a key are kept as they are. No two keys become one, and more slashes at the end of
the prefix change nothing. -/
theorem exactly_the_prefixed_annotations_are_kept (keyPrefix : String) (raw : Table String) :
    let p := withoutSlashes keyPrefix
    let kept := ownAnnotations keyPrefix raw
    (∀ q, q = p ↔ q.toList.getLast? ≠ some '/' ∧ ∃ n, keyPrefix = q ++ slashes n) ∧
    (p ≠ "" → ∀ own value, kept.find? own = some value ↔
      own ≠ "" ∧ raw.find? (p ++ "/" ++ own) = some value) ∧
    (p = "" → kept.entries = raw.entries.filter (·.1 ≠ "")) ∧
    (∀ key other own, ownKey? keyPrefix key = some own → ownKey? keyPrefix other = some own →
      key = other) ∧
    kept.keys.length = raw.keys.countP (IsBehind (if p = "" then "" else p ++ "/")) ∧
    ∀ n, ownAnnotations (keyPrefix ++ slashes n) raw = kept := by
  intro p kept
  have hstart : keyStart keyPrefix = if p = "" then "" else p ++ "/" := keyStart_eq
  have hentries := map_fullKey_ownAnnotations keyPrefix raw
  refine ⟨fun q => eq_withoutSlashes_iff, ?_, ?_, ?_, ?_, ?_⟩
  · intro hp own value
    rw [find?_ownAnnotations_eq_some_iff, fullKey, hstart, if_neg hp]
  · intro hp
    have hfull : ∀ own, fullKey keyPrefix own = own := fun own => by
      rw [fullKey, hstart, if_pos hp, String.empty_append]
    have hbehind : ∀ key, IsBehind "" key ↔ key ≠ "" := fun key => by
      simp [IsBehind]
    simpa only [hfull, hstart, if_pos hp, hbehind, List.map_id'] using hentries
  · intro key other own hkey hother
    obtain ⟨-, rfl⟩ := ownKey?_eq_some_iff.mp hkey
    obtain ⟨-, rfl⟩ := ownKey?_eq_some_iff.mp hother
    rfl
  · rw [← hstart]
    exact length_keys_ownAnnotations keyPrefix raw
  · exact fun n => ownAnnotations_congr (stem_append_slashes n) raw

end Ingress
