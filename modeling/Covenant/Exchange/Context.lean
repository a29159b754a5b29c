import Covenant.Exchange.RequestId
import Covenant.Instance

namespace Covenant

/-- What is known of a request on its way: its id, the operation it is bound to, and the request
instance once it has been validated. -/
structure Context where
  id : RequestId
  operation : Option String := none
  request : Option Instance := none

namespace Context

def bound (id : RequestId) (operation : String) : Context := { id, operation := some operation }

def operationOrError (c : Context) : Except ContractError String :=
  match c.operation with
  | some operation => .ok operation
  | none => .error DefinitionFault.noOperation.error

end Context

end Covenant
