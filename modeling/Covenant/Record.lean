import Covenant.Error
import Covenant.Exchange.Stage

namespace Covenant

inductive Level where
  | debug
  | info
  | warn
  | error
deriving DecidableEq, Repr

def Level.name : Level → String
  | .debug => "debug"
  | .info => "info"
  | .warn => "warn"
  | .error => "error"

inductive Event where
  | operationReplaced (operation previousTemplate : String)
  | routeRegistered (operation method template : String)
  | registryFrozen (operations : Nat)
  | stageReached (operation : String) (origin target : Stage)
  | requestRejected (operation requestId : String) (stage : Stage) (error : ContractError)
  | statusUnchecked (operation requestId : String) (status : UInt16)
  | responseRejected (operation requestId : String) (status : UInt16) (problem : Problem)
  | definitionReshaped (schema : String)
  | documentWritten (path format : String)
  | telemetryStarted (service : String)
deriving DecidableEq, Repr

namespace Event

def level : Event → Level
  | .operationReplaced _ _ => .warn
  | .routeRegistered _ _ _ => .debug
  | .registryFrozen _ => .info
  | .stageReached _ _ _ => .debug
  | .requestRejected _ _ _ _ => .info
  | .statusUnchecked _ _ _ => .debug
  | .responseRejected _ _ _ _ => .error
  | .definitionReshaped _ => .warn
  | .documentWritten _ _ => .info
  | .telemetryStarted _ => .info

def message : Event → String
  | .operationReplaced _ _ => "operation registered twice, replacing previous binding"
  | .routeRegistered _ _ _ => "route registered"
  | .registryFrozen _ => "operation registry frozen"
  | .stageReached _ _ _ => "request pipeline transition"
  | .requestRejected _ _ _ _ => "request validation failed"
  | .statusUnchecked _ _ _ => "response status not declared, skipping validation"
  | .responseRejected _ _ _ _ => "response does not match declared schema"
  | .definitionReshaped _ => "definition name reused for a different shape, keeping the latest"
  | .documentWritten _ _ => "swagger document written"
  | .telemetryStarted _ => "telemetry initialized"

def fields : Event → List (String × String)
  | .operationReplaced id template => [("operation_id", id), ("previous_path", template)]
  | .routeRegistered id method template =>
    [("operation_id", id), ("method", method), ("path", template)]
  | .registryFrozen n => [("operations", toString n)]
  | .stageReached id origin target =>
    [("operation_id", id), ("from", origin.name), ("to", target.name)]
  | .requestRejected id requestId stage e =>
    [("operation_id", id), ("request_id", requestId), ("state", stage.name), ("error", e.text)]
  | .statusUnchecked id requestId status =>
    [("operation_id", id), ("request_id", requestId), ("status", toString status.toNat)]
  | .responseRejected id requestId status p =>
    [("operation_id", id), ("request_id", requestId), ("status", toString status.toNat),
      ("path", p.path), ("error", p.message)]
  | .definitionReshaped schema => [("schema", schema)]
  | .documentWritten path format => [("path", path), ("format", format)]
  | .telemetryStarted service => [("service.name", service)]

end Event

inductive Count where
  | requestValidated (operation : String)
  | requestRejected (operation : String)
  | responseRejected (operation : String) (status : UInt16)
deriving DecidableEq, Repr

/-- A value with what was reported on the way to it, in order. -/
structure Recorded (α : Type) where
  value : α
  events : List Event := []
  counts : List Count := []

namespace Recorded

instance : Monad Recorded where
  pure a := { value := a }
  bind x f :=
    let y := f x.value
    { value := y.value, events := x.events ++ y.events, counts := x.counts ++ y.counts }

def emit (e : Event) : Recorded Unit := { value := (), events := [e] }

def count (c : Count) : Recorded Unit := { value := (), counts := [c] }

variable {α β : Type}

@[simp] theorem value_pure (a : α) : (pure a : Recorded α).value = a := rfl

@[simp] theorem value_bind (x : Recorded α) (f : α → Recorded β) :
    (x >>= f).value = (f x.value).value := rfl

@[simp] theorem events_pure (a : α) : (pure a : Recorded α).events = [] := rfl

@[simp] theorem events_bind (x : Recorded α) (f : α → Recorded β) :
    (x >>= f).events = x.events ++ (f x.value).events := rfl

@[simp] theorem counts_pure (a : α) : (pure a : Recorded α).counts = [] := rfl

@[simp] theorem counts_bind (x : Recorded α) (f : α → Recorded β) :
    (x >>= f).counts = x.counts ++ (f x.value).counts := rfl

end Recorded

end Covenant
