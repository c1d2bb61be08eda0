-- Numbers in decimal notation. Main statement: a text is read as an integer exactly if it is
-- decimal digits, alone or behind a sign, that denote an integer of 64 bits. Every integer is
-- written that way.
import Ingress.Text.Integer
import Mathlib.Data.Nat.Digits.Defs
import Mathlib.Tactic.Ring

namespace Ingress.Text

/-! ## Decimal digits -/

/-- The number that decimal digits denote, the leading one first. -/
def decimal (digits : List Char) : Nat :=
  Nat.ofDigits 10 (digits.reverse.map fun c => c.toNat - '0'.toNat)

theorem decimal_cons (c : Char) (digits : List Char) :
    decimal (c :: digits) = (c.toNat - '0'.toNat) * 10 ^ digits.length + decimal digits := by
  unfold decimal
  rw [List.reverse_cons, List.map_append, Nat.ofDigits_append, List.length_map,
    List.length_reverse]
  simp [Nat.ofDigits_singleton, Nat.mul_comm, Nat.add_comm]

/-- Digits from the left, behind those that gave a number. -/
theorem ofDigitChars_eq (digits : List Char) (n : Nat) :
    Nat.ofDigitChars 10 digits n = n * 10 ^ digits.length + decimal digits := by
  induction digits generalizing n with
  | nil => simp [decimal]
  | cons c digits ih =>
    rw [Nat.ofDigitChars_cons, ih, decimal_cons, List.length_cons]
    ring

theorem decimal_toDigits (n : Nat) : decimal (Nat.toDigits 10 n) = n := by
  have hvalue := ofDigitChars_eq (Nat.toDigits 10 n) 0
  rwa [Nat.ofDigitChars_toDigits (by decide) (by decide), Nat.zero_mul, Nat.zero_add,
    eq_comm] at hvalue

/-- Whether a text is a number in decimal notation. -/
structure IsDecimal (digits : List Char) : Prop where
  nonempty : digits ≠ []
  all : ∀ c ∈ digits, c.isDigit = true

theorem isDecimal_toDigits (n : Nat) : IsDecimal (Nat.toDigits 10 n) :=
  ⟨Nat.toDigits_ne_nil, fun _ => Nat.isDigit_of_mem_toDigits (by decide) (by decide)⟩

/-- The decimal digits of a number, with zeros in front of them up to a width. -/
def paddedDigits (width n : Nat) : List Char := (Nat.toDigits 10 n).leftpad width '0'

/-- Zeros in front of digits add nothing to the number. -/
theorem decimal_zeros_append (zeros : Nat) (digits : List Char) :
    decimal (List.replicate zeros '0' ++ digits) = decimal digits := by
  induction zeros with
  | zero => rfl
  | succ zeros ih =>
    rw [List.replicate_succ, List.cons_append, decimal_cons, ih, Nat.sub_self, Nat.zero_mul,
      Nat.zero_add]

theorem decimal_paddedDigits (width n : Nat) : decimal (paddedDigits width n) = n := by
  rw [paddedDigits, List.leftpad, decimal_zeros_append, decimal_toDigits]

theorem paddedDigits_injective (width : Nat) : Function.Injective (paddedDigits width) :=
  Function.LeftInverse.injective (decimal_paddedDigits width)

/-! ## Digits within a limit -/

theorem le_ofDigitChars (digits : List Char) (n : Nat) : n ≤ Nat.ofDigitChars 10 digits n := by
  rw [ofDigitChars_eq]
  exact Nat.le_add_right_of_le (Nat.le_mul_of_pos_right n (Nat.pow_pos (by decide)))

theorem readDigits_eq_ok_iff {limit value n : Nat} {fault : IntegerError} {digits : List Char}
    (h : value ≤ limit) : readDigits limit fault value digits = .ok n ↔
      (∀ c ∈ digits, c.isDigit = true) ∧ Nat.ofDigitChars 10 digits value = n ∧ n ≤ limit := by
  induction digits generalizing value with
  | nil =>
    rw [readDigits, Except.ok.injEq]
    constructor
    · rintro rfl
      exact ⟨nofun, rfl, h⟩
    · exact fun hvalue => hvalue.2.1
  | cons c digits ih =>
    rw [readDigits, digit?, Nat.ofDigitChars_cons, List.forall_mem_cons]
    by_cases hc : c.isDigit = true
    · simp only [hc, if_true, true_and]
      split
      · next hle => rw [ih hle]
      · next hgt =>
        have hbeyond := le_ofDigitChars digits (10 * value + (c.toNat - '0'.toNat))
        constructor
        · exact nofun
        · rintro ⟨-, rfl, hle⟩
          exact absurd (hbeyond.trans hle) hgt
    · simp [hc]

/-- Within a limit, exactly the numbers in decimal notation are read. -/
theorem readDigits_zero_eq_ok_iff {limit n : Nat} {fault : IntegerError} {digits : List Char} :
    readDigits limit fault 0 digits = .ok n ↔
      (∀ c ∈ digits, c.isDigit = true) ∧ decimal digits = n ∧ n ≤ limit := by
  rw [readDigits_eq_ok_iff (Nat.zero_le limit), ofDigitChars_eq, Nat.zero_mul, Nat.zero_add]

/-! ## Integers -/

/-- The literals of integers: decimal digits, alone or behind a sign. -/
inductive IntegerLiteral : List Char → Int → Prop
  | bare {digits : List Char} : IsDecimal digits → IntegerLiteral digits (decimal digits)
  | plus {digits : List Char} : IsDecimal digits → IntegerLiteral ('+' :: digits) (decimal digits)
  | minus {digits : List Char} : IsDecimal digits →
      IntegerLiteral ('-' :: digits) (-(decimal digits : Int))

/-- The integers of 64 bits. -/
def IsInteger64 (n : Int) : Prop := -2 ^ 63 ≤ n ∧ n < 2 ^ 63

instance (n : Int) : Decidable (IsInteger64 n) := inferInstanceAs (Decidable (_ ∧ _))

section Integers

variable {cs digits : List Char} {n : Int}

/-- A sign is read with the digits behind it, down to -2^63 and up to 2^63 - 1. -/
theorem readInteger_minus (h : digits ≠ []) : readInteger ('-' :: digits) =
    (readDigits (Nat.pow 2 63) .tooSmall 0 digits).map fun n : Nat => -(n : Int) := by
  cases digits with
  | nil => exact absurd rfl h
  | cons c digits =>
    simp only [readInteger]
    cases readDigits (Nat.pow 2 63) .tooSmall 0 (c :: digits) <;> rfl

theorem readInteger_plus (h : digits ≠ []) : readInteger ('+' :: digits) =
    (readDigits (Nat.pow 2 63 - 1) .tooLarge 0 digits).map fun n : Nat => (n : Int) := by
  cases digits with
  | nil => exact absurd rfl h
  | cons c digits => rfl

theorem readInteger_bare (hne : cs ≠ []) (hminus : ∀ rest, cs ≠ '-' :: rest)
    (hplus : ∀ rest, cs ≠ '+' :: rest) : readInteger cs =
      (readDigits (Nat.pow 2 63 - 1) .tooLarge 0 cs).map fun n : Nat => (n : Int) := by
  rw [readInteger]
  · rfl
  · exact hne
  · exact hplus []
  · exact hminus []
  · exact hminus
  · exact hplus

theorem map_readDigits_eq_ok_iff {limit : Nat} {fault : IntegerError} {f : Nat → Int} :
    (readDigits limit fault 0 digits).map f = .ok n ↔
      (∀ c ∈ digits, c.isDigit = true) ∧ f (decimal digits) = n ∧ decimal digits ≤ limit := by
  cases hread : readDigits limit fault 0 digits with
  | ok m =>
    obtain ⟨hdigits, rfl, hle⟩ := readDigits_zero_eq_ok_iff.mp hread
    exact ⟨fun h => ⟨hdigits, Except.ok.inj h, hle⟩, fun h => congrArg Except.ok h.2.1⟩
  | error e =>
    constructor
    · exact nofun
    · rintro ⟨hdigits, -, hle⟩
      rw [readDigits_zero_eq_ok_iff.mpr ⟨hdigits, rfl, hle⟩] at hread
      cases hread

theorem IsDecimal.ne_cons {c : Char} (h : IsDecimal digits) (hc : c.isDigit = false)
    (rest : List Char) : digits ≠ c :: rest := by
  rintro rfl
  exact Bool.false_ne_true (hc.symm.trans (h.all c List.mem_cons_self))

theorem literal_of_readInteger (h : readInteger cs = .ok n) :
    IntegerLiteral cs n ∧ IsInteger64 n := by
  have hpow : Nat.pow 2 63 = 9223372036854775808 := by decide
  unfold IsInteger64
  cases cs using readInteger.fun_cases with
  | case1 => cases h
  | case2 => cases h
  | case3 => cases h
  | case4 digits hne =>
    rw [readInteger_minus hne, map_readDigits_eq_ok_iff] at h
    obtain ⟨hdigits, rfl, hle⟩ := h
    exact ⟨.minus ⟨hne, hdigits⟩, by omega⟩
  | case5 digits hne =>
    rw [readInteger_plus hne, map_readDigits_eq_ok_iff] at h
    obtain ⟨hdigits, rfl, hle⟩ := h
    exact ⟨.plus ⟨hne, hdigits⟩, by omega⟩
  | case6 cs hne _ _ hminus hplus =>
    rw [readInteger_bare hne hminus hplus, map_readDigits_eq_ok_iff] at h
    obtain ⟨hdigits, rfl, hle⟩ := h
    exact ⟨.bare ⟨hne, hdigits⟩, by omega⟩

theorem readInteger_of_literal (hliteral : IntegerLiteral cs n) (hrange : IsInteger64 n) :
    readInteger cs = .ok n := by
  have hpow : Nat.pow 2 63 = 9223372036854775808 := by decide
  obtain ⟨hlow, hhigh⟩ := hrange
  cases hliteral with
  | bare hdecimal =>
    have hminus := hdecimal.ne_cons (c := '-') (by decide)
    have hplus := hdecimal.ne_cons (c := '+') (by decide)
    rw [readInteger_bare hdecimal.nonempty hminus hplus, map_readDigits_eq_ok_iff]
    exact ⟨hdecimal.all, rfl, by omega⟩
  | plus hdecimal =>
    rw [readInteger_plus hdecimal.nonempty, map_readDigits_eq_ok_iff]
    exact ⟨hdecimal.all, rfl, by omega⟩
  | minus hdecimal =>
    rw [readInteger_minus hdecimal.nonempty, map_readDigits_eq_ok_iff]
    exact ⟨hdecimal.all, rfl, by omega⟩

/-- Exactly the literals of integers of 64 bits are read. -/
theorem readInteger_eq_ok_iff : readInteger cs = .ok n ↔ IntegerLiteral cs n ∧ IsInteger64 n :=
  ⟨literal_of_readInteger, fun h => readInteger_of_literal h.1 h.2⟩

theorem integerLiteral_repr (n : Int) : IntegerLiteral n.repr.toList n := by
  cases n with
  | ofNat m =>
    have hliteral := IntegerLiteral.bare (isDecimal_toDigits m)
    rwa [decimal_toDigits, ← Nat.toList_repr] at hliteral
  | negSucc m =>
    have hliteral := IntegerLiteral.minus (isDecimal_toDigits (m + 1))
    rw [decimal_toDigits, ← Nat.toList_repr] at hliteral
    have htext : (Int.negSucc m).repr.toList = '-' :: (m + 1).repr.toList := by
      simp [Int.repr]
    rw [htext]
    exact hliteral

/-- A literal has no other characters than digits and signs. -/
theorem IntegerLiteral.not_mem (h : IntegerLiteral cs n) {c : Char} (hdigit : c.isDigit = false)
    (hplus : c ≠ '+') (hminus : c ≠ '-') : c ∉ cs := by
  have hdigits : ∀ {digits : List Char}, IsDecimal digits → c ∉ digits := fun hdecimal hmem =>
    Bool.false_ne_true (hdigit.symm.trans (hdecimal.all c hmem))
  cases h with
  | bare hdecimal => exact hdigits hdecimal
  | plus hdecimal => simp [hplus, hdigits hdecimal]
  | minus hdecimal => simp [hminus, hdigits hdecimal]

end Integers

end Ingress.Text
