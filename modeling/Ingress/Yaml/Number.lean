-- The numbers that scalars stand for. Integers are decimal, hexadecimal, octal or binary; digits
-- behind a leading zero are no decimal integer.
import Ingress.Text.Digit

namespace Ingress.Yaml

/-! ## Integers -/

/-- Whether a text is a sign or none, a zero, and more digits. -/
def hasLeadingZero (cs : List Char) : Bool :=
  let digits := match cs with
    | '+' :: rest => rest
    | '-' :: rest => rest
    | _ => cs
  match digits with
  | '0' :: d :: rest => (d :: rest).all Char.isDigit
  | _ => false

/-- The number of digits with a mark of their base in front. -/
def marked? : List Char → Option Nat
  | '0' :: 'x' :: digits => Text.inBase? 16 digits
  | '0' :: 'o' :: digits => Text.inBase? 8 digits
  | '0' :: 'b' :: digits => Text.inBase? 2 digits
  | _ => none

/-- The number that a text without a sign, or with a plus sign, stands for. -/
def natural? (cs : List Char) : Option Nat :=
  let digits := match cs with
    | '+' :: rest => rest
    | _ => cs
  marked? digits <|> if hasLeadingZero cs then none else Text.inBase? 10 digits

/-- The number whose negative a text with a minus sign stands for. -/
def negated? (cs : List Char) : Option Nat :=
  match cs with
  | '-' :: digits => marked? digits <|> if hasLeadingZero cs then none else Text.inBase? 10 digits
  | _ => none

/-! ## Floating point numbers -/

/-- A decimal number: all its digits, how many of them stand behind the point, and its exponent. -/
structure Decimal where
  digits : Nat
  places : Nat
  exponent : Int

/-- Reads the exponent of a decimal number, if there is one. -/
def exponent? : List Char → Option Int
  | [] => some 0
  | e :: cs =>
    if e ≠ 'e' ∧ e ≠ 'E' then none
    else match cs with
      | '+' :: digits => (Text.inBase? 10 digits).map Int.ofNat
      | '-' :: digits => (Text.inBase? 10 digits).map fun n => -(n : Int)
      | digits => (Text.inBase? 10 digits).map Int.ofNat

/-- Reads a decimal number without a sign. There is a digit before or behind the point. -/
def decimal? (cs : List Char) : Option Decimal :=
  let whole := cs.takeWhile Char.isDigit
  let rest := cs.dropWhile Char.isDigit
  let (places, rest) := match rest with
    | '.' :: rest => (rest.takeWhile Char.isDigit, rest.dropWhile Char.isDigit)
    | _ => ([], rest)
  do
    let exponent ← exponent? rest
    let digits ← Text.inBase? 10 (whole ++ places)
    return ⟨digits, places.length, exponent⟩

/-- Whether a decimal number is so great that it has no nearest number of 64 bits. The bound lies
halfway between the greatest number of 53 binary digits and the next power of two. -/
def Decimal.overflows (d : Decimal) : Bool :=
  let exponent := d.exponent - d.places
  let length := (Nat.toDigits 10 d.digits).length
  if d.digits = 0 then false
  else if exponent + length > 400 then true
  else if exponent + length < 300 then false
  else
    let bound := Nat.pow 2 1024 - Nat.pow 2 970
    if 0 ≤ exponent then decide (bound ≤ d.digits * Nat.pow 10 exponent.toNat)
    else decide (bound * Nat.pow 10 (-exponent).toNat ≤ d.digits)

/-- Whether a text stands for a floating point number. -/
def isFloat (cs : List Char) : Bool :=
  let special := [".inf", ".Inf", ".INF", "+.inf", "+.Inf", "+.INF", "-.inf", "-.Inf", "-.INF",
    ".nan", ".NaN", ".NAN"]
  let unsigned := match cs with
    | '+' :: rest => rest
    | '-' :: rest => rest
    | _ => cs
  special.contains (String.ofList cs) || (decimal? unsigned).any fun d => !d.overflows

end Ingress.Yaml
