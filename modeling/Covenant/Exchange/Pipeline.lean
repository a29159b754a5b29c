import Covenant.Combine
import Covenant.Contract
import Covenant.Exchange.Extraction
import Covenant.Record

namespace Covenant

/-- A pipeline runs once; after a failure it keeps the parts it has and the stage it reached, and
may run again only if that is the first. -/
structure Pipeline where
  operation : String
  contract : RequestContract
  rejectMissingFields : Bool
  stage : Stage := .unvalidated
  parts : List Instance := []

namespace Pipeline

def advance (p : Pipeline) (target : Stage) : Recorded Pipeline := do
  Recorded.emit (.stageReached p.operation p.stage target)
  return { p with stage := target }

def absorb (p : Pipeline) (part : Instance) (target : Stage) : Recorded Pipeline :=
  { p with parts := p.parts ++ [part] }.advance target

def readPart (p : Pipeline) (schema : Option RecordSchema)
    (extract : RecordSchema → Except ContractError Instance) (target : Stage) :
    Recorded (Pipeline × Except ContractError Unit) :=
  match schema with
  | none => return (p, .ok ())
  | some s =>
    match extract s with
    | .ok part => return (← p.absorb part target, .ok ())
    | .error e => return (p, .error e)

def finish (p : Pipeline) : Recorded (Pipeline × Except ContractError Instance) :=
  match combine p.contract.schema p.parts with
  | .error e => return (p, .error e)
  | .ok r => return (← (← p.advance .combined).advance .ready, .ok r)

def run (p : Pipeline) (captures : Captures) (body : Json.Value) :
    Recorded (Pipeline × Except ContractError Instance) := do
  if p.stage ≠ .unvalidated then
    return (p, .error (DefinitionFault.finishedPipeline p.operation).error)
  match ← p.readPart p.contract.path (Extraction.path captures p.rejectMissingFields)
      .pathValidated with
  | (p, .error e) => return (p, .error e)
  | (p, .ok ()) =>
    match ← p.readPart p.contract.body (Extraction.body body p.rejectMissingFields)
        .bodyValidated with
    | (p, .error e) => return (p, .error e)
    | (p, .ok ()) => p.finish

end Pipeline

end Covenant
