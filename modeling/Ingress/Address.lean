-- Addresses of IP version 4 and 6 and ranges of them in CIDR form. The numbers of a version 4
-- address have no leading zeros, and a version 6 address may end in a version 4 address.
import Ingress.Text.Blank
import Ingress.Text.Digit
import Ingress.Text.Integer
import Ingress.Text.Split

namespace Ingress.Address

/-- The version of an address. -/
inductive Family where
  | v4
  | v6
deriving DecidableEq

/-- The number of bits of an address. -/
def Family.bits : Family → Nat
  | .v4 => 32
  | .v6 => 128

/-! ## Parts of addresses -/

/-- What stands behind one given character. -/
def skipChar (c : Char) : List Char → Option (List Char)
  | [] => none
  | d :: rest => if d = c then some rest else none

/-- What stands behind a number from 0 to 255 in at most three digits without a leading zero. -/
def skipOctet (cs : List Char) : Option (List Char) :=
  let digits := cs.takeWhile Char.isDigit
  match Text.inBase? 10 digits with
  | none => none
  | some n =>
    if 3 < digits.length ∨ 255 < n then none
    else if digits.head? = some '0' ∧ 1 < digits.length then none
    else some (cs.dropWhile Char.isDigit)

/-- What stands behind an address of version 4. -/
def skipV4 (cs : List Char) : Option (List Char) := do
  let cs ← skipChar '.' (← skipOctet cs)
  let cs ← skipChar '.' (← skipOctet cs)
  let cs ← skipChar '.' (← skipOctet cs)
  skipOctet cs

/-- Whether a character is a hexadecimal digit. -/
def isHexDigit (c : Char) : Bool := (Text.hexDigit? c).isSome

/-- What stands behind a group of one to four hexadecimal digits. -/
def skipGroup (cs : List Char) : Option (List Char) :=
  let digits := cs.takeWhile isHexDigit
  if digits = [] ∨ 4 < digits.length then none else some (cs.dropWhile isHexDigit)

/-- A run of groups between colons: their number, whether the last two are written as an address of
version 4, and what stands behind them. -/
structure Groups where
  count : Nat
  endsInV4 : Bool
  rest : List Char

/-- Reads at most `most` groups. A colon stands before each of them but the first. -/
def readGroups : Nat → Bool → List Char → Groups
  | 0, _, cs => ⟨0, false, cs⟩
  | left + 1, isFirst, cs =>
    let start := if isFirst then some cs else skipChar ':' cs
    match if 0 < left then start.bind skipV4 else none with
    | some rest => ⟨2, true, rest⟩
    | none =>
      match start.bind skipGroup with
      | none => ⟨0, false, cs⟩
      | some rest =>
        let groups := readGroups left false rest
        { groups with count := groups.count + 1 }

/-- What stands behind an address of version 6: eight groups, or fewer around a double colon that
stands for at least one. -/
def skipV6 (cs : List Char) : Option (List Char) :=
  let head := readGroups 8 true cs
  if head.count = 8 then some head.rest
  else if head.endsInV4 then none
  else do
    let rest ← skipChar ':' (← skipChar ':' head.rest)
    return (readGroups (7 - head.count) true rest).rest

/-! ## Addresses and ranges -/

/-- The version of the address that a text is. -/
def family? (cs : List Char) : Option Family :=
  match skipV4 cs with
  | some rest => if rest = [] then some .v4 else none
  | none => if skipV6 cs = some [] then some .v6 else none

/-- Whether a text is a number of bits that addresses of a version have. It has digits only, no
sign, and it is read as a number of eight bits. -/
def Family.hasBits (family : Family) (cs : List Char) : Bool :=
  !cs.isEmpty && cs.all Char.isDigit &&
    (Text.readDigits 255 .tooLarge 0 cs).toOption.any (· ≤ family.bits)

/-- Whether a text is an address, a slash and a number of bits that the address has. -/
def isRange (cs : List Char) : Bool :=
  match Text.cut '/' cs with
  | none => false
  | some (address, bits) =>
    match family? address with
    | none => false
    | some family => family.hasBits bits

/-- The entries of a list of ranges between commas, trimmed and without the blank ones. -/
def rangeEntries (s : String) : List String :=
  (((Text.split ',' s.toList).map Text.trim).filter (· ≠ [])).map String.ofList

end Ingress.Address
