-- Texts written line by line, and lines without blanks at their ends. Main statements: trimming a
-- trimmed text changes nothing, and lines that no line end is part of are the lines of the text
-- that they make, whether a line feed ends the last of them or not.
import Ingress.Text.Blank
import Ingress.Text.Split
import Mathlib.Data.List.DropRight

namespace Ingress.Text

/-! ## Trimmed texts -/

section Trim

variable {cs : List Char} {c : Char}

theorem isBlank_of_getLast?_trimEnd (h : (trimEnd cs).getLast? = some c) : isBlank c = false := by
  have hhead := List.head?_dropWhile_not isBlank cs.reverse
  rw [trimEnd, List.getLast?_reverse] at h
  rwa [h] at hhead

/-- What stands at the end of a trimmed text is no blank. -/
theorem isBlank_of_getLast?_trim (h : (trim cs).getLast? = some c) : isBlank c = false := by
  obtain ⟨before, hbefore⟩ := List.dropWhile_suffix isBlank (l := trimEnd cs)
  have hlast : (trimEnd cs).getLast? = some c := by
    rw [← hbefore, List.getLast?_append]
    change (trim cs).getLast?.or _ = some c
    rw [h, Option.some_or]
  exact isBlank_of_getLast?_trimEnd hlast

theorem trimEnd_trim (cs : List Char) : trimEnd (trim cs) = trim cs := by
  refine List.rdropWhile_eq_self_iff.mpr fun hne => ?_
  rw [isBlank_of_getLast?_trim (List.getLast?_eq_some_getLast hne)]
  exact Bool.false_ne_true

theorem trim_trim (cs : List Char) : trim (trim cs) = trim cs := by
  conv_lhs => rw [trim, trimEnd_trim]
  exact List.dropWhile_idempotent isBlank (trimEnd cs)

end Trim

/-! ## Lines -/

/-- A text is read as a single line as it stands, also where a line feed ends it. -/
structure IsLine (line : List Char) : Prop where
  one : '\n' ∉ line
  whole : line.getLast? ≠ some '\r'

theorem IsLine.dropReturn {line : List Char} (h : IsLine line) : Text.dropReturn line = line :=
  if_neg h.whole

theorem lines_of_not_mem {line : List Char} (h : '\n' ∉ line) :
    lines line = if line = [] then [] else [line] := by
  rw [lines, split_eq_singleton h, ofFeeds]

theorem lines_append_cons {line : List Char} (h : '\n' ∉ line) (cs : List Char) :
    lines (line ++ '\n' :: cs) = dropReturn line :: lines cs := by
  rw [lines, split_append_cons, split_eq_singleton h, lines]
  cases hsplit : split '\n' cs with
  | nil => exact absurd hsplit (split_ne_nil '\n' cs)
  | cons field rest => rfl

theorem newline_not_mem_of_mem_ofFeeds {fields : List (List Char)}
    (h : ∀ field ∈ fields, '\n' ∉ field) : ∀ line ∈ ofFeeds fields, '\n' ∉ line := by
  fun_induction ofFeeds fields with
  | case1 => simp
  | case2 => simp
  | case3 last hlast => simpa using h
  | case4 field rest hrest ih =>
    obtain ⟨hfield, hrest⟩ := List.forall_mem_cons.mp h
    refine List.forall_mem_cons.mpr ⟨?_, ih hrest⟩
    unfold dropReturn
    split
    · exact fun hmem => hfield (List.dropLast_subset _ hmem)
    · exact hfield

theorem newline_not_mem_of_mem_lines {cs line : List Char} (h : line ∈ lines cs) : '\n' ∉ line :=
  newline_not_mem_of_mem_ofFeeds (fun _ hfield => not_mem_of_mem_split hfield) line h

/-- A trimmed line is read as it stands. -/
theorem isLine_trim {cs line : List Char} (h : line ∈ lines cs) : IsLine (trim line) where
  one := fun hmem => newline_not_mem_of_mem_lines h ((trim_sublist line).mem hmem)
  whole := fun hlast => absurd (isBlank_of_getLast?_trim hlast) (by decide)

/-! ## Texts of lines -/

/-- Lines with a line feed behind each of them. -/
def terminated (ls : List (List Char)) : List Char := ls.flatMap (· ++ ['\n'])

theorem lines_terminated {ls : List (List Char)} (h : ∀ line ∈ ls, IsLine line) :
    lines (terminated ls) = ls := by
  induction ls with
  | nil => rfl
  | cons line ls ih =>
    obtain ⟨hline, hls⟩ := List.forall_mem_cons.mp h
    have hcons : terminated (line :: ls) = line ++ '\n' :: terminated ls := by
      simp [terminated]
    rw [hcons, lines_append_cons hline.one, hline.dropReturn, ih hls]

/-- Without a line feed at the end, the last line must not be empty. -/
theorem lines_join {ls : List (List Char)} (h : ∀ line ∈ ls, IsLine line)
    (hne : ∀ line ∈ ls, line ≠ []) : lines (join '\n' ls) = ls := by
  fun_induction join '\n' ls with
  | case1 => rfl
  | case2 line =>
    rw [lines_of_not_mem (h line (by simp)).one, if_neg (hne line (by simp))]
  | case3 line rest hrest ih =>
    obtain ⟨hline, hlines⟩ := List.forall_mem_cons.mp h
    obtain ⟨-, hnonempty⟩ := List.forall_mem_cons.mp hne
    rw [lines_append_cons hline.one, hline.dropReturn, ih hlines hnonempty]

end Ingress.Text
