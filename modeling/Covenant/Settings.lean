import Covenant.Docs.Document
import Covenant.Policy
import Covenant.Text.Blank
import Covenant.Text.Case
import Covenant.Text.FileName

namespace Covenant

inductive LogFormat where
  | json
  | pretty
deriving DecidableEq, Repr

namespace LogFormat

def name : LogFormat → String
  | .json => "json"
  | .pretty => "pretty"

def ofName? : String → Option LogFormat
  | "json" => some .json
  | "pretty" => some .pretty
  | _ => none

end LogFormat

@[ext]
structure LoggingSettings where
  enabled : Bool := true
  level : String := "info"
  format : LogFormat := .json
deriving DecidableEq, Repr

@[ext]
structure TelemetrySettings where
  service : String := "miyabi"
  logging : LoggingSettings := {}
  /-- Whether outcomes are counted. -/
  metrics : Bool := true
deriving DecidableEq, Repr

@[ext]
structure DocsSettings where
  info : Docs.BasicInfo := ⟨"localhost:8080", "Miyabi API", "0.1.0", ["http"], "/"⟩
  outputPath : String := "swagger.yaml"
deriving DecidableEq, Repr

@[ext]
structure Settings where
  validation : Policy := .default
  docs : DocsSettings := {}
  telemetry : TelemetrySettings := {}
deriving DecidableEq, Repr

structure InvalidSetting where
  key : String
  reason : String
deriving DecidableEq, Repr

def InvalidSetting.text (i : InvalidSetting) : String :=
  s!"invalid configuration value for {i.key}: {i.reason}"

namespace Settings

def default : Settings := {}

/-- Everything is reported, for a reader. -/
def development : Settings := { telemetry := { logging := { level := "debug", format := .pretty } } }

/-- Responses are checked but pass, and undeclared statuses are not checked. -/
def production : Settings := { validation := .production }

def levels : List String := ["trace", "debug", "info", "warn", "error"]

def schemes : List String := ["http", "https", "ws", "wss"]

def outputExtensions : List String := ["yaml", "yml", "json"]

def levelFault? (s : Settings) : Option InvalidSetting :=
  let level := s.telemetry.logging.level
  if Text.lowerAscii level ∈ levels then none
  else some ⟨"telemetry.logging.level", s!"unknown level '{level}'"⟩

def textFault? (key text : String) : Option InvalidSetting :=
  if Text.isBlankText text then some ⟨key, "must not be empty"⟩ else none

def schemeFault? (s : Settings) : Option InvalidSetting :=
  (s.docs.info.schemes.find? (· ∉ schemes)).map fun scheme =>
    ⟨"docs.schemes", s!"unsupported scheme '{scheme}'"⟩

def basePathFault? (s : Settings) : Option InvalidSetting :=
  if s.docs.info.basePath.toList.head? = some '/' then none
  else some ⟨"docs.base_path", "must start with '/'"⟩

def outputPathFault? (s : Settings) : Option InvalidSetting :=
  let path := s.docs.outputPath
  if ((Text.extension? path).map Text.lower).any (· ∈ outputExtensions) then none
  else some ⟨"docs.output_path", "expected a .yaml, .yml or .json file: " ++ path⟩

def fault? (s : Settings) : Option InvalidSetting :=
  [s.levelFault?, textFault? "telemetry.service_name" s.telemetry.service,
    textFault? "docs.title" s.docs.info.title, s.schemeFault?, s.basePathFault?,
    s.outputPathFault?].findSome? id

end Settings

open Json (Value)

def LoggingSettings.toJson (s : LoggingSettings) : Value :=
  .ofPairs [("enabled", .bool s.enabled), ("level", .string s.level),
    ("format", .string s.format.name)]

def TelemetrySettings.toJson (s : TelemetrySettings) : Value :=
  .ofPairs [("service_name", .string s.service), ("logging", s.logging.toJson),
    ("metrics", .ofPairs [("enabled", .bool s.metrics)])]

def DocsSettings.toJson (s : DocsSettings) : Value :=
  .ofPairs [("host", .string s.info.host), ("title", .string s.info.title),
    ("version", .string s.info.version), ("schemes", .array (s.info.schemes.map .string)),
    ("base_path", .string s.info.basePath), ("output_path", .string s.outputPath)]

def Settings.toJson (s : Settings) : Value :=
  .ofPairs [("validation", s.validation.toJson.sorted), ("docs", s.docs.toJson),
    ("telemetry", s.telemetry.toJson)]

end Covenant
