-- Blank characters and the trimming of texts. A character is blank if it has the Unicode
-- property White_Space, which holds of twenty-five code points in ten ranges.

namespace Ingress.Text

/-! ## The table -/

/-- First and last code point of each range of blank characters. -/
def blankRanges : List (Nat × Nat) :=
  [(0x09, 0x0D), (0x20, 0x20), (0x85, 0x85), (0xA0, 0xA0), (0x1680, 0x1680), (0x2000, 0x200A),
   (0x2028, 0x2029), (0x202F, 0x202F), (0x205F, 0x205F), (0x3000, 0x3000)]

/-- Whether a character is white space in Unicode. -/
def isBlank (c : Char) : Bool :=
  blankRanges.any fun (low, high) => decide (low ≤ c.toNat) && decide (c.toNat ≤ high)

/-! ## Trimming -/

/-- A text without the blanks at its start. -/
def trimStart (cs : List Char) : List Char := cs.dropWhile isBlank

/-- A text without the blanks at its end. -/
def trimEnd (cs : List Char) : List Char := (cs.reverse.dropWhile isBlank).reverse

/-- A text without the blanks at both ends. -/
def trim (cs : List Char) : List Char := trimStart (trimEnd cs)

theorem trimStart_sublist (cs : List Char) : (trimStart cs).Sublist cs :=
  List.dropWhile_sublist _

theorem trimEnd_sublist (cs : List Char) : (trimEnd cs).Sublist cs := by
  simpa [trimEnd] using (List.dropWhile_sublist isBlank (l := cs.reverse)).reverse

theorem trim_sublist (cs : List Char) : (trim cs).Sublist cs :=
  (trimStart_sublist _).trans (trimEnd_sublist cs)

end Ingress.Text
