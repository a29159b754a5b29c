import Covenant.Contract.Status
import Covenant.Error
import Covenant.Schema

namespace Covenant

/-- A request is put together from the parameters of its path and the members of its body. -/
structure RequestContract where
  consumes : List String
  schema : RecordSchema
  path : Option RecordSchema
  body : Option RecordSchema
deriving DecidableEq

namespace RequestContract

def defaultConsumes : List String := ["application/json"]

def make (consumes : List String) (schema : RecordSchema) (path body : Option RecordSchema) :
    RequestContract :=
  ⟨if consumes.isEmpty then defaultConsumes else consumes, schema, path, body⟩

def parts (r : RequestContract) : List RecordSchema := r.path.toList ++ r.body.toList

/-- The part that declares a field, with the field's type there. -/
def supplier? (r : RequestContract) (field : String) : Option (RecordSchema × FieldType) :=
  r.parts.findSome? fun part => (part.fieldType? field).map (part, ·)

/-- A field of the body that the path declares too. -/
def sharedFault? (r : RequestContract) : Option DefinitionFault := do
  let path ← r.path
  let body ← r.body
  let field ← body.fieldNames.find? path.declares
  some (.sharedField field path.name body.name)

def fieldFault? (r : RequestContract) (field : String) (type : FieldType) :
    Option DefinitionFault :=
  match r.supplier? field with
  | none => some (.unsuppliedField field r.schema.name)
  | some (part, t) =>
    if t = type then none
    else some (.conflictingTypes field t.name part.name type.name r.schema.name)

def fault? (r : RequestContract) : Option DefinitionFault :=
  r.sharedFault?.or (r.schema.fields.findSome? fun (f, t) => r.fieldFault? f t)

def check (r : RequestContract) : Except ContractError Unit :=
  match r.fault? with
  | none => .ok ()
  | some fault => .error fault.error

theorem check_eq_ok {r : RequestContract} : r.check = .ok () ↔ r.fault? = none := by
  unfold check
  cases r.fault? <;> simp

end RequestContract

structure ResponseContract where
  schema : RecordSchema
  description : String
deriving DecidableEq

namespace ResponseContract

/-- A response without a description of its own takes that of its schema. -/
def make (schema : RecordSchema) (description : Option String) : ResponseContract :=
  ⟨schema, (description.or schema.description).getD ""⟩

end ResponseContract

abbrev Responses := List (Status × ResponseContract)

structure Contract where
  request : RequestContract
  responses : Responses
deriving DecidableEq

end Covenant
