import Covenant.Entries

namespace Covenant

mutual

inductive FieldType where
  | integer
  | text
  | list (item : FieldType)
  | record (schema : RecordSchema)

structure RecordSchema where
  name : String
  description : Option String
  fields : List (String × FieldType)

end

deriving instance Repr for FieldType
deriving instance Repr for RecordSchema

mutual

def FieldType.same : FieldType → FieldType → Bool
  | .integer, .integer => true
  | .text, .text => true
  | .list a, .list b => a.same b
  | .record a, .record b => a.same b
  | _, _ => false

def RecordSchema.same : RecordSchema → RecordSchema → Bool
  | ⟨n, d, fs⟩, ⟨n', d', fs'⟩ => n == n' && d == d' && sameFields fs fs'

def sameFields : List (String × FieldType) → List (String × FieldType) → Bool
  | [], [] => true
  | (f, a) :: r, (g, b) :: r' => f == g && a.same b && sameFields r r'
  | _, _ => false

end

mutual

theorem FieldType.same_iff : ∀ a b : FieldType, a.same b = true ↔ a = b
  | .integer, b => by cases b <;> simp [FieldType.same]
  | .text, b => by cases b <;> simp [FieldType.same]
  | .list a, b => by cases b <;> simp [FieldType.same, FieldType.same_iff a]
  | .record a, b => by cases b <;> simp [FieldType.same, RecordSchema.same_iff a]

theorem RecordSchema.same_iff : ∀ a b : RecordSchema, a.same b = true ↔ a = b
  | ⟨n, d, fs⟩, ⟨n', d', fs'⟩ => by simp [RecordSchema.same, sameFields_iff fs, and_assoc]

theorem sameFields_iff : ∀ r r' : List (String × FieldType), sameFields r r' = true ↔ r = r'
  | [], r' => by cases r' <;> simp [sameFields]
  | (f, a) :: r, [] => by simp [sameFields]
  | (f, a) :: r, (g, b) :: r' => by
    simp [sameFields, FieldType.same_iff a, sameFields_iff r]

end

instance : DecidableEq FieldType := fun a b => decidable_of_iff _ (FieldType.same_iff a b)

instance : DecidableEq RecordSchema := fun a b => decidable_of_iff _ (RecordSchema.same_iff a b)

namespace FieldType

/-- A record goes by its own name. -/
def name : FieldType → String
  | .integer => "Integer"
  | .text => "String"
  | .list _ => "List"
  | .record s => s.name

end FieldType

namespace RecordSchema

def fieldType? (s : RecordSchema) (field : String) : Option FieldType := s.fields.lookup field

def declares (s : RecordSchema) (field : String) : Bool := (s.fieldType? field).isSome

def fieldNames (s : RecordSchema) : List String := s.fields.map (·.1)

theorem declares_iff {s : RecordSchema} {field : String} :
    s.declares field = true ↔ field ∈ s.fieldNames := Entries.lookup_isSome

/-- The same fields with the same types, whatever the records are called. -/
def sameShape (s t : RecordSchema) : Bool := s.fields == t.fields

def empty (name : String) (description : Option String) : RecordSchema := ⟨name, description, []⟩

/-- Declaring a field again replaces its type and keeps its place. -/
def declare (s : RecordSchema) (field : String) (type : FieldType) : RecordSchema :=
  { s with fields := Entries.put field type s.fields }

def ofDeclarations (name : String) (description : Option String)
    (declarations : List (String × FieldType)) : RecordSchema :=
  declarations.foldl (fun s (f, t) => s.declare f t) (empty name description)

end RecordSchema

end Covenant
