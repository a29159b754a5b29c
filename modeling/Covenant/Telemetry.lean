import Covenant.Log.Filter
import Covenant.Record
import Covenant.Service
import Covenant.Settings

namespace Covenant

structure LogOutput where
  enabled : Bool
  filter : String
  /-- One JSON object per line, else lines for a reader. -/
  json : Bool
  location : Bool
  target : Bool
deriving DecidableEq, Repr

namespace LogOutput

def default : LogOutput := ⟨true, "info", true, false, true⟩

def development : LogOutput := ⟨true, "debug", false, true, true⟩

def production : LogOutput := default

inductive StartError where
  | badFilter (fault : Log.FilterFault)
  | alreadyStarted
deriving DecidableEq, Repr

def StartError.text : StartError → String
  | .badFilter fault => "Failed to initialize logging: Invalid log level: " ++ fault.text
  | .alreadyStarted =>
    "Failed to initialize logging: a global default trace dispatcher has already been set"

def checkFilter (filter : String) : Except StartError Unit :=
  match Log.filterFault? filter with
  | some fault => .error (.badFilter fault)
  | none => .ok ()

/-- Output that is not enabled is not started; `running` tells whether there is one. -/
def start (running : Bool) (o : LogOutput) : Except StartError Unit := do
  if o.enabled then
    checkFilter o.filter
    if running then throw .alreadyStarted

end LogOutput

structure Telemetry where
  service : String := "miyabi"
  log : LogOutput := .default
  metrics : Bool := true
deriving DecidableEq, Repr

def Telemetry.start (running : Bool) (t : Telemetry) : Recorded (Except LogOutput.StartError Unit) :=
  match t.log.start running with
  | .error e => pure (.error e)
  | .ok () => do
    Recorded.emit (.telemetryStarted t.service)
    return .ok ()

def LoggingSettings.output (s : LoggingSettings) : LogOutput where
  enabled := s.enabled
  filter := s.level
  json := s.format = .json
  location := s.format = .pretty
  target := true

def TelemetrySettings.telemetry (s : TelemetrySettings) : Telemetry :=
  ⟨s.service, s.logging.output, s.metrics⟩

def Settings.draft (s : Settings) : Draft :=
  .new s.validation s.docs.info s.docs.outputPath

end Covenant
