import Covenant.Validation
import Covenant.Route.Template

namespace Covenant.Extraction

open Json Validation

def missingParameter : String := "required path parameter is missing"

/-- Values are validated against the fields of a schema, in order; a field that is absent is passed
over unless absence is to be rejected. -/
def fields (source : String → Option Value) (reject : Bool) (absence : String) :
    List (String × FieldType) → Except ContractError (List (String × Datum))
  | [] => .ok []
  | (field, type) :: rest =>
    match source field with
    | some v =>
      match validateAt (fieldPath rootPath field) type v with
      | .ok d => (fields source reject absence rest).map ((field, d) :: ·)
      | .error p => .error (.request p)
    | none =>
      if reject then .error (.request ⟨fieldPath rootPath field, absence⟩)
      else fields source reject absence rest

def record (schema : RecordSchema) (source : String → Option Value) (reject : Bool)
    (absence : String) : Except ContractError Instance :=
  (fields source reject absence schema.fields).map fun values => ⟨schema, values⟩

def path (captures : Captures) (reject : Bool) (schema : RecordSchema) :
    Except ContractError Instance :=
  record schema (fun field => (captures.lookup field).map .string) reject missingParameter

/-- No body is an empty one. -/
def body (v : Value) (reject : Bool) (schema : RecordSchema) : Except ContractError Instance :=
  match v with
  | .null => record schema (fun _ => none) reject missingMessage
  | .object members => record schema (Members.get? members) reject missingMessage
  | _ => .error (.request ⟨rootPath, s!"expected object body for '{schema.name}'"⟩)

end Covenant.Extraction
