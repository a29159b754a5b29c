import Covenant.Validation.Coercion

namespace Covenant.Validation

open Json

def rootPath : String := "$"

def fieldPath (path field : String) : String := s!"{path}.{field}"

def itemPath (path : String) (i : Nat) : String := s!"{path}[{i}]"

def missingMessage : String := "required field is missing"

def eachItem (check : Nat → Value → Except Problem Datum) :
    Nat → List Value → Except Problem (List Datum)
  | _, [] => .ok []
  | i, v :: rest => do
    let d ← check i v
    let ds ← eachItem check (i + 1) rest
    return d :: ds

mutual

/-- Lists and records are walked in order, and the first failure is reported with its path from the
root. -/
def validateAt (path : String) : FieldType → Value → Except Problem Datum
  | .integer, v =>
    match coerceInteger v with
    | .ok n => .ok (.integer n)
    | .error message => .error ⟨path, message⟩
  | .text, v => .ok (.text (coerceText v))
  | .list item, v =>
    match v with
    | .array items =>
      (eachItem (fun i x => validateAt (itemPath path i) item x) 0 items).map .list
    | _ => .error ⟨path, s!"expected list, got {v.kindName}"⟩
  | .record schema, v => (validateRecordAt path schema v).map .record

/-- Members that the schema does not declare are passed over. -/
def validateRecordAt (path : String) : RecordSchema → Value → Except Problem Instance
  | ⟨name, description, fields⟩, v =>
    match v with
    | .object members =>
      (validateFieldsAt path fields members).map fun values => ⟨⟨name, description, fields⟩, values⟩
    | _ => .error ⟨path, s!"expected object for '{name}', got {v.kindName}"⟩

def validateFieldsAt (path : String) :
    List (String × FieldType) → Members → Except Problem (List (String × Datum))
  | [], _ => .ok []
  | (field, type) :: rest, members =>
    match members.get? field with
    | none => .error ⟨fieldPath path field, missingMessage⟩
    | some v => do
      let d ← validateAt (fieldPath path field) type v
      let values ← validateFieldsAt path rest members
      return (field, d) :: values

end

def validate (type : FieldType) (v : Value) : Except Problem Datum := validateAt rootPath type v

def validateRecord (schema : RecordSchema) (v : Value) : Except Problem Instance :=
  validateRecordAt rootPath schema v

end Covenant.Validation
