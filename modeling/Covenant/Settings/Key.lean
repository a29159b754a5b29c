import Covenant.Settings

namespace Covenant.Settings

inductive Key where
  | validateRequests
  | validateResponses
  | enforceResponses
  | rejectMissingFields
  | allowUndeclaredStatus
  | host
  | title
  | version
  | schemes
  | basePath
  | outputPath
  | service
  | logEnabled
  | logLevel
  | logFormat
  | metrics
deriving DecidableEq, Repr

inductive Expected where
  | boolean
  | logFormat
deriving DecidableEq, Repr

def Expected.text : Expected → String
  | .boolean => "expected boolean"
  | .logFormat => "expected 'json' or 'pretty'"

/-- A truth value in one of its four spellings, in any letter case. -/
def flag? (text : String) : Option Bool :=
  let word := Text.lower text
  if word ∈ ["true", "1", "yes", "on"] then some true
  else if word ∈ ["false", "0", "no", "off"] then some false
  else none

/-- Names between commas, blanks around them and empty ones left out. -/
def schemeList (text : String) : List String :=
  (((Text.splitAt ',' text.toList).map Text.trim).filter (!·.isEmpty)).map fun cs =>
    Text.lower (String.ofList cs)

namespace Key

def all : List Key := [.validateRequests, .validateResponses, .enforceResponses,
  .rejectMissingFields, .allowUndeclaredStatus, .host, .title, .version, .schemes, .basePath,
  .outputPath, .service, .logEnabled, .logLevel, .logFormat, .metrics]

def path : Key → List String
  | .validateRequests => ["validation", "validate_requests"]
  | .validateResponses => ["validation", "validate_responses"]
  | .enforceResponses => ["validation", "enforce_responses"]
  | .rejectMissingFields => ["validation", "reject_missing_fields"]
  | .allowUndeclaredStatus => ["validation", "allow_undeclared_status"]
  | .host => ["docs", "host"]
  | .title => ["docs", "title"]
  | .version => ["docs", "version"]
  | .schemes => ["docs", "schemes"]
  | .basePath => ["docs", "base_path"]
  | .outputPath => ["docs", "output_path"]
  | .service => ["telemetry", "service_name"]
  | .logEnabled => ["telemetry", "logging", "enabled"]
  | .logLevel => ["telemetry", "logging", "level"]
  | .logFormat => ["telemetry", "logging", "format"]
  | .metrics => ["telemetry", "metrics", "enabled"]

/-- The steps to a key in capital letters, joined by double underscores behind those of a prefix. -/
def variableName (pre : String) (k : Key) : String :=
  "__".intercalate (pre :: k.path.map Text.upper)

def ofVariable? (pre name : String) : Option Key := all.find? fun k => k.variableName pre = name

def setFlag (text : String) (set : Bool → Settings) : Except Expected Settings :=
  match flag? text with
  | some b => .ok (set b)
  | none => .error .boolean

/-- The settings with the value that a text stands for under a key. -/
def set (k : Key) (text : String) (s : Settings) : Except Expected Settings :=
  match k with
  | .validateRequests => setFlag text fun b =>
    { s with validation := { s.validation with validateRequests := b } }
  | .validateResponses => setFlag text fun b =>
    { s with validation := { s.validation with validateResponses := b } }
  | .enforceResponses => setFlag text fun b =>
    { s with validation := { s.validation with enforceResponses := b } }
  | .rejectMissingFields => setFlag text fun b =>
    { s with validation := { s.validation with rejectMissingFields := b } }
  | .allowUndeclaredStatus => setFlag text fun b =>
    { s with validation := { s.validation with allowUndeclaredStatus := b } }
  | .host => .ok { s with docs := { s.docs with info := { s.docs.info with host := text } } }
  | .title => .ok { s with docs := { s.docs with info := { s.docs.info with title := text } } }
  | .version => .ok { s with docs := { s.docs with info := { s.docs.info with version := text } } }
  | .schemes =>
    .ok { s with docs := { s.docs with info := { s.docs.info with schemes := schemeList text } } }
  | .basePath =>
    .ok { s with docs := { s.docs with info := { s.docs.info with basePath := text } } }
  | .outputPath => .ok { s with docs := { s.docs with outputPath := text } }
  | .service => .ok { s with telemetry := { s.telemetry with service := text } }
  | .logEnabled => setFlag text fun b =>
    { s with telemetry := { s.telemetry with logging := { s.telemetry.logging with enabled := b } } }
  | .logLevel =>
    .ok { s with telemetry :=
      { s.telemetry with logging := { s.telemetry.logging with level := text } } }
  | .logFormat =>
    match LogFormat.ofName? (Text.lower text) with
    | some f =>
      .ok { s with telemetry :=
        { s.telemetry with logging := { s.telemetry.logging with format := f } } }
    | none => .error .logFormat
  | .metrics => setFlag text fun b => { s with telemetry := { s.telemetry with metrics := b } }

end Key

/-- The settings after all variables, each of which sets the key that it names, or the first
variable whose value does not fit. -/
def withVariables (s : Settings) (pre : String) :
    List (String × String) → Except (String × Expected) Settings
  | [] => .ok s
  | (name, text) :: rest =>
    match Key.ofVariable? pre name with
    | none => s.withVariables pre rest
    | some key =>
      match key.set text s with
      | .ok s' => s'.withVariables pre rest
      | .error expected => .error (name, expected)

end Covenant.Settings
