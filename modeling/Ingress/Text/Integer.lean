-- Decimal integer literals of 64 bits with an optional sign. A literal is read from left to right
-- and the first fault decides, so a fault of range hides a character that is no digit behind it.
import Ingress.Text.Digit

namespace Ingress.Text

/-! ## Faults -/

/-- Why a text is not an integer literal. -/
inductive IntegerError where
  | empty
  | invalidDigit
  | tooLarge
  | tooSmall
deriving DecidableEq

/-- The wording of a fault. -/
def IntegerError.message : IntegerError → String
  | .empty => "cannot parse integer from empty string"
  | .invalidDigit => "invalid digit found in string"
  | .tooLarge => "number too large to fit in target type"
  | .tooSmall => "number too small to fit in target type"

/-! ## Reading -/

/-- Reads digits behind those that gave `value`, and fails with `fault` at the first digit that
takes the value beyond `limit`. -/
def readDigits (limit : Nat) (fault : IntegerError) : Nat → List Char → Except IntegerError Nat
  | value, [] => .ok value
  | value, c :: cs =>
    match digit? c with
    | none => .error .invalidDigit
    | some d =>
      if 10 * value + d ≤ limit then readDigits limit fault (10 * value + d) cs else .error fault

/-- Reads an integer from -2^63 to 2^63 - 1. -/
def readInteger : List Char → Except IntegerError Int
  | [] => .error .empty
  | ['+'] => .error .invalidDigit
  | ['-'] => .error .invalidDigit
  | '-' :: cs => (readDigits (Nat.pow 2 63) .tooSmall 0 cs).map fun n => -(n : Int)
  | '+' :: cs => (readDigits (Nat.pow 2 63 - 1) .tooLarge 0 cs).map Int.ofNat
  | cs => (readDigits (Nat.pow 2 63 - 1) .tooLarge 0 cs).map Int.ofNat

/-- The integer a string denotes, if any. -/
def integer? (s : String) : Option Int := (readInteger s.toList).toOption

end Ingress.Text
