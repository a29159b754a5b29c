import Covenant.Error.Envelope
import Covenant.Exchange.Context
import Covenant.Exchange.Pipeline
import Covenant.Policy
import Covenant.Registry

namespace Covenant.Exchange

/-- On success the context holds the request instance. -/
def validateRequest (registry : Registry) (policy : Policy) (context : Context)
    (captures : Captures) (body : Json.Value) :
    Recorded (Context × Except ContractError Unit) := do
  if !policy.validateRequests then return (context, .ok ())
  match context.operationOrError with
  | .error e => return (context, .error e)
  | .ok id =>
    match registry.contractOf id with
    | .error e => return (context, .error e)
    | .ok contract =>
      let start : Pipeline :=
        { operation := id, contract := contract.request
          rejectMissingFields := policy.rejectMissingFields }
      match ← start.run captures body with
      | (_, .ok request) =>
        Recorded.count (.requestValidated id)
        return ({ context with request := some request }, .ok ())
      | (pipeline, .error e) =>
        Recorded.emit (.requestRejected id context.id.text pipeline.stage e)
        Recorded.count (.requestRejected id)
        return (context, .error e)

def responseContract (registry : Registry) (id : String) (status : Status) :
    Except ContractError ResponseContract := do
  let contract ← registry.contractOf id
  match contract.responses.lookup status with
  | some response => .ok response
  | none => .error (.undeclaredStatus id status.code)

def verdict (policy : Policy) (p : Problem) : Except ContractError Unit :=
  if policy.enforceResponses then .error (.response p) else .ok ()

def validateResponse (registry : Registry) (policy : Policy) (context : Context)
    (status : Status) (body : Json.Value) : Recorded (Except ContractError Unit) := do
  if !policy.validateResponses then return .ok ()
  match context.operationOrError with
  | .error e => return .error e
  | .ok id =>
    match responseContract registry id status with
    | .error (.undeclaredStatus operation code) =>
      if policy.allowUndeclaredStatus then
        Recorded.emit (.statusUnchecked id context.id.text status.code)
        return .ok ()
      else return .error (.undeclaredStatus operation code)
    | .error e => return .error e
    | .ok response =>
      match Validation.validateRecord response.schema body with
      | .ok _ => return .ok ()
      | .error p =>
        Recorded.emit (.responseRejected id context.id.text status.code p)
        Recorded.count (.responseRejected id status.code)
        return verdict policy p

def renderResponse (registry : Registry) (context : Context) (status : Status)
    (content : Instance) : Except ContractError (Status × Json.Value) := do
  let id ← context.operationOrError
  let response ← responseContract registry id status
  match Validation.validateRecord response.schema content.toJson with
  | .ok shown => .ok (status, shown.toJson)
  | .error p => .error (.response p)

/-- What the client is told: a status and the envelope, all keys sorted. -/
def errorResponse (context : Context) (e : ContractError) : UInt16 × Json.Value :=
  (e.status, (e.envelope (some context.id.text)).toJson.sorted)

end Covenant.Exchange
