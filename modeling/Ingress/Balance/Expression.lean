-- Balance expressions such as `version=blue=50,version=green=25`, which give a weight to each group
-- of endpoints whose pods carry a label. The first entry that cannot be read decides the error.
import Ingress.Table
import Ingress.Text.Integer
import Ingress.Text.Split

namespace Ingress

/-- Why a balance expression is refused as a whole. -/
inductive BalanceError where
  | invalidFormat (entry : String)
  | invalidWeight (error : Text.IntegerError)
  | overflow
deriving DecidableEq

/-- The wording of a refusal. -/
def BalanceError.message : BalanceError → String
  | .invalidFormat entry => "invalid weight format: " ++ entry
  | .invalidWeight error => "invalid weight value: " ++ error.message
  | .overflow => "invalid weight normalization: arithmetic overflow"

/-- A group of endpoints, by a label of their pods, and its weight. -/
structure BalanceGroup where
  label : String
  value : String
  weight : Int
deriving DecidableEq

/-- Whether pods with these labels belong to a group. -/
def BalanceGroup.matches (g : BalanceGroup) (labels : Table String) : Bool :=
  labels.find? g.label = some g.value

/-- Reads an entry of three fields: a label, its value and a weight. -/
def readBalanceEntry (entry : List Char) : Except BalanceError BalanceGroup :=
  match Text.split '=' entry with
  | [label, value, weight] =>
    match Text.readInteger weight with
    | .ok w => .ok ⟨String.ofList label, String.ofList value, w⟩
    | .error e => .error (.invalidWeight e)
  | _ => .error (.invalidFormat (String.ofList entry))

/-- Reads the entries of a balance expression. -/
def readBalance (expression : String) : Except BalanceError (List BalanceGroup) :=
  (Text.split ',' expression.toList).mapM readBalanceEntry

end Ingress
