import Covenant.Contract
import Covenant.Record
import Covenant.Route.Method
import Covenant.Route.Template

namespace Covenant

structure Operation where
  id : String
  method : Method
  template : String
  contract : Contract
deriving DecidableEq

namespace Operation

def parameters (o : Operation) : List String := Template.parameters o.template

def captures? (o : Operation) (path : String) : Option Captures :=
  Template.captures? o.template path

def literalCount (o : Operation) : Nat := Template.literalCount o.template

end Operation

/-- One operation for each id, in the order in which the ids were first registered. -/
structure Registry where
  operations : List Operation
deriving DecidableEq

namespace Registry

def empty : Registry := ⟨[]⟩

def get? (r : Registry) (id : String) : Option Operation := r.operations.find? (·.id = id)

/-- An operation takes the place of the one with its id, if there is one. -/
def place (o : Operation) : List Operation → List Operation
  | [] => [o]
  | p :: rest => if p.id = o.id then o :: rest else p :: place o rest

def register (r : Registry) (o : Operation) : Recorded (Registry × Option Operation) := do
  let previous := r.get? o.id
  if let some p := previous then Recorded.emit (.operationReplaced p.id p.template)
  return (⟨place o r.operations⟩, previous)

def contractOf (r : Registry) (id : String) : Except ContractError Contract :=
  match r.get? id with
  | some o => .ok o.contract
  | none => .error (.unmappedOperation id)

def size (r : Registry) : Nat := r.operations.length

/-- Of matches with most literal segments the first. -/
def best : List (Operation × Captures) → Option (Operation × Captures)
  | [] => none
  | found :: rest =>
    match best rest with
    | none => some found
    | some other =>
      if other.1.literalCount ≤ found.1.literalCount then some found else some other

def candidates (r : Registry) (method : Method) (path : String) : List (Operation × Captures) :=
  (r.operations.filter (·.method = method)).filterMap fun o => (o.captures? path).map (o, ·)

/-- A request goes to the operation of its method that matches its path, the one with most literal
segments if there are several, and of those the first. -/
def resolve? (r : Registry) (method : Method) (path : String) : Option (Operation × Captures) :=
  best (r.candidates method path)

end Registry

end Covenant
