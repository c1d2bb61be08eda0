-- The program: it reads the files that a command names, and prints what the command leaves behind.
import Ingress.Command

namespace Ingress

/-- Whether the number of an error is a given one. It may come with either sign. -/
def isErrorNumber (expected code : UInt32) : Bool := code = expected || -code = expected

/-- The text of a file. -/
def readFile (name : String) : IO (Except FileFault String) := do
  try
    let bytes ← IO.FS.readBinFile name
    match String.fromUTF8? bytes with
    | some text => return .ok text
    | none => return .error .notText
  catch
    | .noFileOrDirectory .. => return .error .missing
    | .permissionDenied .. => return .error .denied
    | .inappropriateType _ code _ =>
      return .error (if isErrorNumber 20 code then .notDirectory else .notText)
    | .invalidArgument _ code _ =>
      return .error (if isErrorNumber 36 code then .nameTooLong else .notText)
    | _ => return .error .notText

end Ingress

def main (args : List String) : IO UInt32 := do
  let outcome ← Ingress.runProgram Ingress.readFile args
  for line in outcome.stderr do
    IO.eprintln line
  IO.print outcome.stdout
  return outcome.exitCode.toUInt32
