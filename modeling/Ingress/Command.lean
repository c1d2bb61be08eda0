-- The commands of the program: rendering a snapshot, and checking a configuration.
import Ingress.Address.Known
import Ingress.Config
import Ingress.Log.Filter
import Ingress.Report
import Ingress.Snapshot.Document

namespace Ingress

/-! ## Arguments -/

/-- What the program is asked to do, with the files to read. -/
inductive Command where
  | render (config snapshot : String)
  | checkConfig (config : String)
deriving DecidableEq

/-- Whether an argument may stand behind the name of an option as its value. -/
def isOptionValue (arg : String) : Bool := arg ≠ "" && (arg = "-" || arg.toList.head? ≠ some '-')

/-- The name and the value of an option written as one argument. -/
def joinedOption? (arg : String) : Option (String × String) :=
  match Text.cut '=' arg.toList with
  | some (name, value) =>
    if value = [] then none else some (String.ofList name, String.ofList value)
  | none => none

/-- The argument behind which no options stand. -/
def endOfOptions : String := "--"

/-- Reads options, each as one argument or as two. Nothing may stand behind their end. -/
def readOptions : List String → Option (List (String × String))
  | [] => some []
  | [arg] => if arg = endOfOptions then some [] else (joinedOption? arg).map ([·])
  | arg :: next :: rest =>
    match joinedOption? arg with
    | some option => (readOptions (next :: rest)).map (option :: ·)
    | none =>
      if isOptionValue next then (readOptions rest).map ((arg, next) :: ·) else none

/-- The values of the named options, in the order of the names. Each must be given once, and no
others. -/
def optionValues? (names : List String) (args : List String) : Option (List String) := do
  let options ← readOptions args
  if options.all (fun o => names.contains o.1) && options.length = names.length then
    names.mapM fun name => options.lookup name
  else none

/-- The command that arguments ask for. -/
def Command.ofArgs? : List String → Option Command
  | "render" :: args =>
    match optionValues? ["--config", "--snapshot"] args with
    | some [config, snapshot] => some (.render config snapshot)
    | _ => none
  | "check-config" :: args =>
    match optionValues? ["--config"] args with
    | some [config] => some (.checkConfig config)
    | _ => none
  | _ => none

/-! ## Files -/

/-- Why a path leads to no text. All but the last prevent that anything is opened. -/
inductive FileFault where
  | missing
  | denied
  | notDirectory
  | nameTooLong
  | notText
deriving DecidableEq

/-- Why nothing is opened, in words and as the number of the error. -/
def FileFault.reason? : FileFault → Option (String × Nat)
  | missing => some ("No such file or directory", 2)
  | denied => some ("Permission denied", 13)
  | notDirectory => some ("Not a directory", 20)
  | nameTooLong => some ("File name too long", 36)
  | notText => none

/-- The wording of a fault of a file of some kind. -/
def FileFault.message (kind : String) (fault : FileFault) : String :=
  match fault.reason? with
  | some (reason, number) =>
    "could not load " ++ kind ++ " from file: " ++ reason ++ " (os error " ++ number.repr ++ ")"
  | none => "could not parse " ++ kind

/-- What a file of some kind holds, or why it holds nothing. -/
def load {α : Type} (kind : String) (read : String → Except String α) :
    Except FileFault String → Except String α
  | .error fault => .error (fault.message kind)
  | .ok text => read text

/-- The configuration in a file. -/
def loadConfig (file : Except FileFault String) : Except String Config :=
  load "config" (fun text => (Config.ofText text).mapError (·.message)) file

/-- The snapshot in a file. -/
def loadSnapshot (file : Except FileFault String) : Except String Snapshot :=
  load "snapshot" (fun text =>
    match Snapshot.ofText? text with
    | some snapshot => .ok snapshot
    | none => .error "could not parse snapshot") file

/-! ## Outcomes -/

/-- What a run of the program leaves behind. -/
structure Outcome where
  exitCode : Nat
  stdout : String
  stderr : List String
deriving DecidableEq

/-- The outcome for arguments that ask for nothing. -/
def Outcome.usage : Outcome := ⟨2, "", []⟩

/-- The program as a whole, as records name what they come from. -/
def programTarget : String := "synth"

/-- What is logged about the place where metrics go. -/
def metricsRecords : Option MetricsConfig → List LogRecord
  | none => []
  | some m =>
    let failed := fun reason =>
      [LogRecord.mk .warn programTarget "metrics disabled"
        [("error", "failed to build statsd recorder: " ++ reason)]]
    if Text.trim m.host.toList = [] then failed "Empty hostname is not allowed"
    else if m.port = 0 then failed "Port number must be nonzero"
    else if !Address.isKnownHost m.host then failed "Metrics reporting error"
    else [⟨.debug, programTarget ++ "::telemetry", "statsd metrics enabled",
      [("host", m.host), ("port", m.port.repr)]⟩]

/-- A snapshot rendered under settings, or why it cannot be. -/
def renderFile (settings : Settings) (file : Except FileFault String) :
    Logged (Except String Rendered) :=
  match loadSnapshot file with
  | .error message => pure (.error message)
  | .ok snapshot => do
    match ← snapshot.render settings with
    | .error error => return .error error.message
    | .ok rendered => return .ok rendered

/-- The outcome of rendering the snapshot of a name under a configuration. -/
def renderOutcome (config : Config) (name : String) (file : Except FileFault String) : Outcome :=
  let result := renderFile config.settings file
  let records := metricsRecords config.metrics ++ result.events.map (·.record)
  let filter := Filter.ofText ((config.logging.map (·.level)).getD Config.defaultLevel)
  match result.value with
  | .error message =>
    ⟨1, "", filter.lines (records ++ [⟨.error, programTarget, message, [("snapshot", name)]⟩])⟩
  | .ok rendered => ⟨0, (Report.rendered rendered).text ++ "\n", filter.lines records⟩

/-- Does what a command asks for. -/
def Command.run {m : Type → Type} [Monad m] (readFile : String → m (Except FileFault String)) :
    Command → m Outcome
  | .checkConfig name => do
    match loadConfig (← readFile name) with
    | .ok _ => return ⟨0, name ++ ": ok\n", []⟩
    | .error message => return ⟨1, "", printedLines (name ++ ": " ++ message)⟩
  | .render configName snapshotName => do
    match loadConfig (← readFile configName) with
    | .error message => return ⟨1, "", printedLines ("Error loading config: " ++ message)⟩
    | .ok config => return renderOutcome config snapshotName (← readFile snapshotName)

/-- Runs the program. -/
def runProgram {m : Type → Type} [Monad m] (readFile : String → m (Except FileFault String))
    (args : List String) : m Outcome :=
  match Command.ofArgs? args with
  | none => return .usage
  | some command => command.run readFile

end Ingress
