-- The texts that are ranges of addresses. An address has no slash in it, so the first slash of a
-- range is the one behind its address. Main statement: a text is a range exactly if it is an
-- address, a slash and decimal digits that denote a number of bits of the address.
import Ingress.Address
import Ingress.Proofs.Decimal

namespace Ingress

namespace Address

/-! ## Characters of addresses -/

/-- Whether a character may stand in an address. -/
def isAddressChar (c : Char) : Bool := isHexDigit c || c = '.' || c = ':'

/-- What is left of a text is its end, and characters of addresses stand before it. -/
def Eats (cs rest : List Char) : Prop :=
  ∃ eaten, cs = eaten ++ rest ∧ ∀ c ∈ eaten, isAddressChar c = true

theorem Eats.refl (cs : List Char) : Eats cs cs := ⟨[], rfl, by simp⟩

theorem Eats.trans {cs between rest : List Char} (h : Eats cs between) (h' : Eats between rest) :
    Eats cs rest := by
  obtain ⟨eaten, rfl, heaten⟩ := h
  obtain ⟨eaten', rfl, heaten'⟩ := h'
  refine ⟨eaten ++ eaten', (List.append_assoc _ _ _).symm, ?_⟩
  intro c hc
  rcases List.mem_append.mp hc with hc | hc
  · exact heaten c hc
  · exact heaten' c hc

theorem Eats.all {cs : List Char} (h : Eats cs []) : ∀ c ∈ cs, isAddressChar c = true := by
  obtain ⟨eaten, rfl, heaten⟩ := h
  rwa [List.append_nil]

theorem eats_dropWhile {p : Char → Bool} (h : ∀ c, p c = true → isAddressChar c = true)
    (cs : List Char) : Eats cs (cs.dropWhile p) :=
  ⟨cs.takeWhile p, List.takeWhile_append_dropWhile.symm,
    fun c hc => h c (List.all_eq_true.mp List.all_takeWhile c hc)⟩

variable {cs rest : List Char}

theorem eats_skipChar {c : Char} (hc : isAddressChar c = true) (h : skipChar c cs = some rest) :
    Eats cs rest := by
  cases cs with
  | nil => cases h
  | cons d cs =>
    simp only [skipChar] at h
    split at h
    · next hd =>
      cases h
      exact ⟨[d], rfl, by simpa [hd] using hc⟩
    · cases h

theorem eats_skipOctet (h : skipOctet cs = some rest) : Eats cs rest := by
  have hdigit : ∀ c : Char, c.isDigit = true → isAddressChar c = true := by
    intro c hc
    simp [isAddressChar, isHexDigit, Text.hexDigit?, hc]
  unfold skipOctet at h
  dsimp only at h
  split at h
  · cases h
  · split at h
    · cases h
    · split at h
      · cases h
      · cases h
        exact eats_dropWhile hdigit cs

theorem eats_skipV4 (h : skipV4 cs = some rest) : Eats cs rest := by
  have hdot : isAddressChar '.' = true := by decide
  unfold skipV4 at h
  simp only [bind, Option.bind_eq_some_iff] at h
  obtain ⟨cs₁, h₁, cs₂, h₂, cs₃, h₃, cs₄, h₄, cs₅, h₅, cs₆, h₆, h₇⟩ := h
  apply (eats_skipOctet h₁).trans
  apply (eats_skipChar hdot h₂).trans
  apply (eats_skipOctet h₃).trans
  apply (eats_skipChar hdot h₄).trans
  apply (eats_skipOctet h₅).trans
  apply (eats_skipChar hdot h₆).trans
  exact eats_skipOctet h₇

theorem eats_skipGroup (h : skipGroup cs = some rest) : Eats cs rest := by
  have hhex : ∀ c, isHexDigit c = true → isAddressChar c = true := by
    intro c hc
    simp [isAddressChar, hc]
  unfold skipGroup at h
  dsimp only at h
  split at h
  · cases h
  · cases h
    exact eats_dropWhile hhex cs

theorem eats_readGroups (most : Nat) (isFirst : Bool) (cs : List Char) :
    Eats cs (readGroups most isFirst cs).rest := by
  have hcolon : isAddressChar ':' = true := by decide
  induction most generalizing isFirst cs with
  | zero => exact .refl cs
  | succ left ih =>
    -- a group starts behind a colon, unless it is the first one
    have hstart : ∀ start, (if isFirst then some cs else skipChar ':' cs) = some start →
        Eats cs start := by
      intro start h
      split at h
      · cases h
        exact .refl cs
      · exact eats_skipChar hcolon h
    unfold readGroups
    dsimp only
    split
    · next rest hv4 =>
      split at hv4
      · obtain ⟨start, hs, h⟩ := Option.bind_eq_some_iff.mp hv4
        exact (hstart start hs).trans (eats_skipV4 h)
      · cases hv4
    · split
      · exact .refl cs
      · next rest hgroup =>
        obtain ⟨start, hs, h⟩ := Option.bind_eq_some_iff.mp hgroup
        exact ((hstart start hs).trans (eats_skipGroup h)).trans (ih false rest)

theorem eats_skipV6 (h : skipV6 cs = some rest) : Eats cs rest := by
  have hcolon : isAddressChar ':' = true := by decide
  have hhead := eats_readGroups 8 true cs
  unfold skipV6 at h
  dsimp only at h
  split at h
  · cases h
    exact hhead
  · split at h
    · cases h
    · simp only [bind, Option.bind_eq_some_iff] at h
      obtain ⟨cs₁, h₁, cs₂, h₂, h₃⟩ := h
      cases h₃
      apply hhead.trans
      apply (eats_skipChar hcolon h₁).trans
      apply (eats_skipChar hcolon h₂).trans
      exact eats_readGroups _ true cs₂

/-- An address has no other characters than those of addresses. -/
theorem isAddressChar_of_family? {family : Family} (h : family? cs = some family) :
    ∀ c ∈ cs, isAddressChar c = true := by
  unfold family? at h
  split at h
  · next rest hv4 =>
    split at h
    · next hrest => exact (hrest ▸ eats_skipV4 hv4).all
    · cases h
  · split at h
    · next hv6 => exact (eats_skipV6 hv6).all
    · cases h

theorem slash_not_mem_of_family? {family : Family} (h : family? cs = some family) : '/' ∉ cs := by
  intro hslash
  have hchar := isAddressChar_of_family? h '/' hslash
  revert hchar
  decide

/-! ## Ranges -/

theorem Family.bits_le (family : Family) : family.bits ≤ 255 := by
  cases family <;> decide

/-- No version has more bits than a number of eight bits can tell, so the width of the number that
is read refuses nothing that the version does not refuse. -/
theorem Family.hasBits_iff (family : Family) {digits : List Char} :
    family.hasBits digits = true ↔ digits ≠ [] ∧ (∀ c ∈ digits, c.isDigit = true) ∧
      Text.decimal digits ≤ family.bits := by
  have hread : ∀ n, (Text.readDigits 255 .tooLarge 0 digits).toOption = some n ↔
      (∀ c ∈ digits, c.isDigit = true) ∧ Text.decimal digits = n ∧ n ≤ 255 := by
    intro n
    rw [← Text.readDigits_zero_eq_ok_iff]
    cases Text.readDigits 255 .tooLarge 0 digits <;> simp [Except.toOption]
  unfold Family.hasBits
  simp only [Bool.and_eq_true, Bool.not_eq_true', List.isEmpty_eq_false_iff, List.all_eq_true,
    Option.any_eq_true, decide_eq_true_eq, hread]
  constructor
  · rintro ⟨⟨hne, hdigits⟩, n, ⟨-, rfl, -⟩, hle⟩
    exact ⟨hne, hdigits, hle⟩
  · rintro ⟨hne, hdigits, hle⟩
    exact ⟨⟨hne, hdigits⟩, _, ⟨hdigits, rfl, hle.trans family.bits_le⟩, hle⟩

/-- Whether an entry is a range: an address, a slash, and digits that denote at most the number of
bits of the address. -/
def IsRange (entry : String) : Prop :=
  ∃ address digits family, entry.toList = address ++ '/' :: digits ∧
    family? address = some family ∧ digits ≠ [] ∧ (∀ c ∈ digits, c.isDigit = true) ∧
    Text.decimal digits ≤ family.bits

theorem isRange_iff (entry : String) : isRange entry.toList = true ↔ IsRange entry := by
  unfold isRange IsRange
  constructor
  · intro h
    split at h
    · cases h
    · next address bits hcut =>
      split at h
      · cases h
      · next family hfamily =>
        obtain ⟨hentry, -⟩ := Text.eq_append_of_cut hcut
        exact ⟨address, bits, family, hentry, hfamily, family.hasBits_iff.mp h⟩
  · rintro ⟨address, digits, family, hentry, hfamily, hbits⟩
    rw [hentry, Text.cut_append (slash_not_mem_of_family? hfamily)]
    simp only [hfamily]
    exact family.hasBits_iff.mpr hbits

instance (entry : String) : Decidable (IsRange entry) := decidable_of_iff _ (isRange_iff entry)

end Address

end Ingress
