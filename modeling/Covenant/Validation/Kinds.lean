import Covenant.Validation

namespace Covenant

open Json Validation

/-- A type that has no other in it. -/
inductive ScalarType where
  | integer
  | text
deriving DecidableEq, Repr

namespace ScalarType

def fieldType : ScalarType → FieldType
  | .integer => .integer
  | .text => .text

def validateAt (path : String) : ScalarType → Value → Except Problem Datum
  | .integer, v =>
    match coerceInteger v with
    | .ok n => .ok (.integer n)
    | .error message => .error ⟨path, message⟩
  | .text, v => .ok (.text (coerceText v))

def validate (t : ScalarType) (v : Value) : Except Problem Datum := t.validateAt rootPath v

theorem validateAt_eq (path : String) (t : ScalarType) (v : Value) :
    t.validateAt path v = Validation.validateAt path t.fieldType v := by
  cases t <;> rfl

end ScalarType

structure ListType where
  item : FieldType

namespace ListType

def fieldType (t : ListType) : FieldType := .list t.item

def validateAt (path : String) (t : ListType) : Value → Except Problem Datum
  | .array items =>
    (eachItem (fun i x => Validation.validateAt (itemPath path i) t.item x) 0 items).map .list
  | v => .error ⟨path, s!"expected list, got {v.kindName}"⟩

def validate (t : ListType) (v : Value) : Except Problem Datum := t.validateAt rootPath v

theorem validateAt_eq (path : String) (t : ListType) (v : Value) :
    t.validateAt path v = Validation.validateAt path t.fieldType v := by
  cases v <;> rfl

end ListType

def FieldType.validate (t : FieldType) (v : Value) : Except Problem Datum := Validation.validate t v

end Covenant
