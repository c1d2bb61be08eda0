-- The configuration of the program as a YAML document: where metrics and logs go, and the settings
-- of annotations. The sections on metrics and logs take texts only from what has no other type.
import Ingress.Settings
import Ingress.Yaml.Decode

namespace Ingress

open Yaml (Decoder Fields Node Value)

/-- Where metrics go. -/
structure MetricsConfig where
  host : String
  port : Nat
  keyPrefix : String
deriving DecidableEq

/-- Which logs are written, and where errors are reported. -/
structure LoggingConfig where
  level : String
  sentryDsn : Option String
deriving DecidableEq

/-- The configuration of the program. -/
structure Config where
  metrics : Option MetricsConfig
  logging : Option LoggingConfig
  settings : Settings
deriving DecidableEq

/-- Why a configuration is refused. -/
inductive ConfigError where
  | unreadable
  | invalidAnnotations (error : SettingsError)
deriving DecidableEq

/-- The wording of a refusal. -/
def ConfigError.message : ConfigError → String
  | .unreadable => "could not parse config"
  | .invalidAnnotations error => "invalid annotations config: " ++ error.message

namespace Config

/-! ## Typed sections -/

/-- The name of a field: a text, or the place of the field in its section. -/
def fieldName? (names : List String) : Value → Option String
  | .text s => some s
  | .natural n => some ((names[n]?).getD "")
  | _ => none

/-- The values of the named fields of a section, given by name, or in order without names. A field
must not be given twice, and there are no fields without names. -/
def section? (names : List String) : Value → Option (String → Option Value)
  | .mapping entries => do
    let fields ← entries.mapM fun (key, value) => do return (← fieldName? names key, value)
    if names.all fun name => (fields.map (·.1)).count name ≤ 1 then
      return fun name => fields.lookup name
    else none
  | .sequence items =>
    if items.length ≤ names.length then some fun name => (names.zip items).lookup name else none
  | _ => none

/-- The prefix of metrics to which no other one is given. -/
def defaultMetricsPrefix : String := "synth"

/-- The level of logs to which no other one is given. -/
def defaultLevel : String := "info"

/-- Reads the section on metrics. -/
def readMetrics? (v : Value) : Option MetricsConfig := do
  let field ← section? ["statsd_host", "statsd_port", "prefix"] v
  return {
    host := ← (field "statsd_host").bind Value.text?
    port := ← (field "statsd_port").bind (Value.natural? 65535)
    keyPrefix := ← ((field "prefix").map Value.text?).getD (some defaultMetricsPrefix) }

/-- Reads the section on logs. One without names has to say whether errors are reported. -/
def readLogging? (v : Value) : Option LoggingConfig := do
  let field ← section? ["level", "sentry_dsn"] v
  let absent := match v with
    | .sequence _ => none
    | _ => some none
  return {
    level := ← ((field "level").map Value.text?).getD (some defaultLevel)
    sentryDsn := ← ((field "sentry_dsn").map (Value.optional? Value.text?)).getD absent }

/-! ## Settings of annotations -/

/-- Reads the settings of annotations. -/
def readSettings (node : Node) : Decoder Settings := do
  let f ← Fields.ofNode ["prefix", "defaults", "validators"] node
  return {
    keyPrefix := ← f.optional "prefix" Node.text ""
    defaults := ← f.optional "defaults" (Node.table Node.text) .empty
    kinds := ← f.optional "validators"
      (Node.table fun node => do ValueKind.ofName? (← node.choice)) .empty }

/-! ## Documents -/

/-- The configuration of a node. Every entry but the settings of annotations must have a type of its
own and must not be nested too deeply, also one that means nothing. -/
def ofNode (node : Node) : Decoder Config := do
  let f ← Fields.ofNode ["annotations", "metrics", "logging"] node
  let typed ← (f.entries.filter (·.1 ≠ "annotations")).mapM fun (key, node) =>
    return (key, ← Value.ofNode (Value.maxDepth - 1) node)
  let common := fun (key : String) => (typed.lookup key).getD .null
  return {
    metrics := ← Value.optional? readMetrics? (common "metrics")
    logging := ← Value.optional? readLogging? (common "logging")
    settings := ← f.optional "annotations" readSettings .plain }

/-- The configuration of a text. -/
def ofText (s : String) : Except ConfigError Config :=
  match (Node.ofText? s).bind (Decoder.of? ofNode) with
  | none => .error .unreadable
  | some config =>
    match config.settings.fault? with
    | some error => .error (.invalidAnnotations error)
    | none => .ok config

end Config

end Ingress
