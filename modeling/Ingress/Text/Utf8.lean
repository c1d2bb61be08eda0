-- Bytes and texts in UTF-8. Reading never fails: each longest run of bytes that begins a character
-- but cannot go on to one becomes a single replacement character.

namespace Ingress.Text

/-! ## Writing -/

/-- The bytes of a string in UTF-8. -/
def utf8Encode (s : String) : List UInt8 := s.toList.flatMap String.utf8EncodeChar

/-! ## Reading -/

/-- A character whose bytes have been read in part: how many bytes are missing, the bits so far, and
the least and greatest byte that may come next. -/
structure PartialChar where
  missing : Nat
  bits : Nat
  low : Nat
  high : Nat

/-- The replacement character, U+FFFD. -/
def replacement : Char := Char.ofNat 0xFFFD

/-- What a first byte of more than 0x7F opens. A second byte is bounded more closely behind E0, ED,
F0 and F4, which leaves out overlong forms, surrogates and values above 0x10FFFF. -/
def leadByte? (b : Nat) : Option PartialChar :=
  if 0xC2 ≤ b ∧ b ≤ 0xDF then some ⟨1, b - 0xC0, 0x80, 0xBF⟩
  else if b = 0xE0 then some ⟨2, 0, 0xA0, 0xBF⟩
  else if b = 0xED then some ⟨2, 0xD, 0x80, 0x9F⟩
  else if 0xE1 ≤ b ∧ b ≤ 0xEF then some ⟨2, b - 0xE0, 0x80, 0xBF⟩
  else if b = 0xF0 then some ⟨3, 0, 0x90, 0xBF⟩
  else if 0xF1 ≤ b ∧ b ≤ 0xF3 then some ⟨3, b - 0xF0, 0x80, 0xBF⟩
  else if b = 0xF4 then some ⟨3, 4, 0x80, 0x8F⟩
  else none

/-- A byte where a character may begin: the characters it completes, and what it opens. -/
def beginChar (b : Nat) : List Char × Option PartialChar :=
  if b < 0x80 then ([Char.ofNat b], none)
  else match leadByte? b with
    | none => ([replacement], none)
    | some part => ([], some part)

/-- The next byte behind what has been read: the characters that are now complete, and what is open.
A byte that cannot go on ends the open character and begins anew. -/
def nextByte : Option PartialChar → Nat → List Char × Option PartialChar
  | none, b => beginChar b
  | some part, b =>
    if part.low ≤ b ∧ b ≤ part.high then
      let bits := part.bits * 64 + (b - 0x80)
      if part.missing ≤ 1 then ([Char.ofNat bits], none)
      else ([], some ⟨part.missing - 1, bits, 0x80, 0xBF⟩)
    else
      let (done, opened) := beginChar b
      (replacement :: done, opened)

/-- Reads bytes behind an open character, if there is one. -/
def decodeFrom : Option PartialChar → List UInt8 → List Char
  | none, [] => []
  | some _, [] => [replacement]
  | part, b :: bs =>
    let (done, opened) := nextByte part b.toNat
    done ++ decodeFrom opened bs

/-- The text that bytes denote in UTF-8, with a replacement character for each fault. -/
def utf8Decode (bytes : List UInt8) : List Char := decodeFrom none bytes

end Ingress.Text
