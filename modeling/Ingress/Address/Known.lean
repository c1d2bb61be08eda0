-- Hosts whose address is known without asking a name server: addresses, also of version 4 in short
-- forms and of version 6 with a zone, and the machine itself.
import Ingress.Address

namespace Ingress.Address

/-! ## Short forms -/

/-- The number that a part of a short form is: hexadecimal behind `0x`, octal behind a zero, else
decimal. -/
def shortPart? : List Char → Option Nat
  | '0' :: 'x' :: digits => Text.inBase? 16 digits
  | '0' :: 'X' :: digits => Text.inBase? 16 digits
  | '0' :: digits => Text.inBase? 8 ('0' :: digits)
  | digits => Text.inBase? 10 digits

/-- Whether a text is an address of version 4 in one to four parts, of which the last one takes all
the bytes that the others leave. -/
def isShortV4 (cs : List Char) : Bool :=
  match (Text.split '.' cs).mapM shortPart? with
  | none => false
  | some parts =>
    parts.length ≤ 4 && parts.dropLast.all (· < 256) &&
      decide (parts.getLast?.getD 0 < Nat.pow 256 (5 - parts.length))

/-! ## Zones -/

/-- Whether an address of version 6 holds only on one link or on one machine: it begins with ten
given bits, or it is that of a group with such a reach. -/
def isLocal (cs : List Char) : Bool :=
  match Text.inBase? 16 (cs.takeWhile (· ≠ ':')) with
  | none => false
  | some first =>
    (0xFE80 ≤ first && first ≤ 0xFEBF) ||
      (first / 0x100 = 0xFF && (first % 0x10 = 1 || first % 0x10 = 2))

/-- The interface by which a machine reaches itself. -/
def ownInterface : String := "lo"

/-- Whether a text is an address of version 6, a percent sign and its zone: a number of 32 bits, or
an interface if the address holds only there. -/
def isZoned (cs : List Char) : Bool :=
  match Text.cut '%' cs with
  | none => false
  | some (address, zone) =>
    family? address = some .v6 && ((Text.inBase? 10 zone).any (· < Nat.pow 2 32) ||
      (isLocal address && zone = ownInterface.toList))

/-! ## Hosts -/

/-- The name of the machine itself. -/
def ownHost : String := "localhost"

/-- Whether the address of a host is known. The case of a name does not matter. -/
def isKnownHost (host : String) : Bool :=
  (family? host.toList).isSome || isShortV4 host.toList || isZoned host.toList ||
    host.toList.map Char.toLower = ownHost.toList

end Ingress.Address
