-- The users that a secret lists for basic authentication, one on a line: `name:password` with an
-- encrypted password, `name::password` with a plain one. Every line that is not blank gives either
-- a user or a fault, and lines are counted from 1 with the blank ones.
import Ingress.Backend
import Ingress.Text.Blank
import Ingress.Text.Split

namespace Ingress

/-- Why a line gives no user. -/
inductive LineFault where
  | missingName (line : Nat)
  | missingPassword (user : String) (line : Nat)
deriving DecidableEq

/-- The wording of a fault. -/
def LineFault.message : LineFault → String
  | .missingName line => "missing username line " ++ line.repr
  | .missingPassword user line =>
    "missing password of user '" ++ user ++ "' line " ++ line.repr

/-- Reads a line that is trimmed and not empty. -/
def readUser (number : Nat) (line : List Char) : Except LineFault User :=
  let (name, secret) := (Text.cut ':' line).getD (line, [])
  let (encrypted, password) := match secret with
    | ':' :: plain => (false, plain)
    | _ => (true, secret)
  if name = [] then .error (.missingName number)
  else if password = [] then .error (.missingPassword (String.ofList name) number)
  else .ok ⟨String.ofList name, String.ofList password, encrypted⟩

/-- Reads lines, the first of which has a number, in order. -/
def readUserLines (number : Nat) : List (List Char) → List (Except LineFault User)
  | [] => []
  | line :: rest =>
    if Text.trim line = [] then readUserLines (number + 1) rest
    else readUser number (Text.trim line) :: readUserLines (number + 1) rest

/-- The users of the lines that have one. -/
def usersOf (entries : List (Except LineFault User)) : List User := entries.filterMap (·.toOption)

/-- The faults of the lines that have one. -/
def faultsOf : List (Except LineFault User) → List LineFault
  | [] => []
  | .ok _ :: rest => faultsOf rest
  | .error fault :: rest => fault :: faultsOf rest

/-- What each line of a text that is not blank gives. -/
def readUsers (content : List Char) : List (Except LineFault User) :=
  readUserLines 1 (Text.lines content)

end Ingress
