import Covenant.Json.Overlay
import Covenant.Settings
import Covenant.Toml

namespace Covenant.Settings

open Json (Value)

inductive Format where
  | toml
  | json
deriving DecidableEq, Repr

namespace Format

def ofName? : String → Option Format
  | "toml" => some .toml
  | "json" => some .json
  | _ => none

def value? : Format → String → Option Value
  | .toml => Toml.ofText?
  | .json => Value.ofText?

/-- Whether an array may go on past the last part of its record. -/
def allowsSurplus : Format → Bool
  | .toml => true
  | .json => false

/-- What a choice without content may be written with. -/
def isNoContent : Format → Value → Bool
  | .json, .null => true
  | .toml, .array items => items.isEmpty
  | .toml, .object members => members.isEmpty
  | _, _ => false

end Format

/-- What is given for each part of a record, which is an object of known keys or the array of the
parts in order, of which the last ones may be missing; such an array stands for the whole record. -/
def given? (f : Format) (names : List String) : Value → Option (List (Option Value))
  | .array items =>
    if f.allowsSurplus ∨ items.length ≤ names.length then
      some ((List.range names.length).map (items[·]?))
    else none
  | .object members =>
    let keys := members.map (·.1)
    if (∀ k ∈ keys, k ∈ names) ∧ keys.Nodup then
      some (names.map fun n => members.lookup n)
    else none
  | _ => none

def orElse {α : Type} (read : Value → Option α) (d : α) : Option Value → Option α
  | some v => read v
  | none => some d

def bool? : Value → Option Bool
  | .bool b => some b
  | _ => none

def text? : Value → Option String
  | .string s => some s
  | _ => none

def texts? : Value → Option (List String)
  | .array items => items.mapM text?
  | _ => none

/-- A log format by its name, or as an object that gives the name no content. -/
def logFormat? (f : Format) : Value → Option LogFormat
  | .string name => LogFormat.ofName? name
  | .object [(name, content)] => if f.isNoContent content then LogFormat.ofName? name else none
  | _ => none

def policyOf? (d : Policy) (f : Format) (v : Value) : Option Policy := do
  match ← given? f Policy.names v with
  | [requests, responses, enforce, reject, allow] =>
    some ⟨← orElse bool? d.validateRequests requests, ← orElse bool? d.validateResponses responses,
      ← orElse bool? d.enforceResponses enforce, ← orElse bool? d.rejectMissingFields reject,
      ← orElse bool? d.allowUndeclaredStatus allow⟩
  | _ => none

def docsOf? (d : DocsSettings) (f : Format) (v : Value) : Option DocsSettings := do
  match ← given? f ["host", "title", "version", "schemes", "base_path", "output_path"] v with
  | [host, title, version, schemes, basePath, outputPath] =>
    some ⟨⟨← orElse text? d.info.host host, ← orElse text? d.info.title title,
      ← orElse text? d.info.version version, ← orElse texts? d.info.schemes schemes,
      ← orElse text? d.info.basePath basePath⟩, ← orElse text? d.outputPath outputPath⟩
  | _ => none

def loggingOf? (d : LoggingSettings) (f : Format) (v : Value) : Option LoggingSettings := do
  match ← given? f ["enabled", "level", "format"] v with
  | [enabled, level, format] =>
    some ⟨← orElse bool? d.enabled enabled, ← orElse text? d.level level,
      ← orElse (logFormat? f) d.format format⟩
  | _ => none

def metricsOf? (d : Bool) (f : Format) (v : Value) : Option Bool := do
  match ← given? f ["enabled"] v with
  | [enabled] => orElse bool? d enabled
  | _ => none

def telemetryOf? (d : TelemetrySettings) (f : Format) (v : Value) : Option TelemetrySettings := do
  match ← given? f ["service_name", "logging", "metrics"] v with
  | [service, logging, metrics] =>
    some ⟨← orElse text? d.service service, ← orElse (loggingOf? d.logging f) d.logging logging,
      ← orElse (metricsOf? d.metrics f) d.metrics metrics⟩
  | _ => none

def ofValue? (d : Settings) (f : Format) (v : Value) : Option Settings := do
  match ← given? f ["validation", "docs", "telemetry"] v with
  | [validation, docs, telemetry] =>
    some ⟨← orElse (policyOf? d.validation f) d.validation validation,
      ← orElse (docsOf? d.docs f) d.docs docs, ← orElse (telemetryOf? d.telemetry f) d.telemetry telemetry⟩
  | _ => none

/-- The settings after a layer, or the format that cannot be read: that of the text, or JSON for
settings and layer taken together. -/
def withLayer (s : Settings) (f : Format) (text : String) : Except Format Settings :=
  match f.value? text with
  | none => .error f
  | some layer =>
    if (ofValue? .default f layer).isNone then .error f
    else match ofValue? .default .json (s.toJson.overlay layer.sorted) with
      | some joined => .ok joined
      | none => .error .json

end Covenant.Settings
