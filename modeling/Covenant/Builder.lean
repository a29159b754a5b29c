import Covenant.Instance

namespace Covenant

/-- An instance in the making. The values are kept in the order in which their fields were first
set, and shown in the order of the schema. -/
structure Builder where
  schema : RecordSchema
  values : List (String × Datum)
  once : (values.map (·.1)).Nodup
  declared : ∀ f ∈ values.map (·.1), f ∈ schema.fieldNames

namespace Builder

def empty (schema : RecordSchema) : Builder := ⟨schema, [], .nil, by simp⟩

theorem declared_put {s : RecordSchema} {values : List (String × Datum)}
    (h : ∀ f ∈ values.map (·.1), f ∈ s.fieldNames) {field : String} (hf : field ∈ s.fieldNames)
    (d : Datum) : ∀ f ∈ (Entries.put field d values).map (·.1), f ∈ s.fieldNames := by
  intro f hmem
  rcases Entries.mem_keys_put.mp hmem with rfl | hmem
  · exact hf
  · exact h f hmem

def insert (b : Builder) {field : String} (h : field ∈ b.schema.fieldNames) (d : Datum) : Builder :=
  ⟨b.schema, Entries.put field d b.values, Entries.nodup_put field d b.once,
    declared_put b.declared h d⟩

/-- Only a field that the schema declares can be set. -/
def set (b : Builder) (field : String) (d : Datum) : Except ContractError Builder :=
  if h : b.schema.declares field then .ok (b.insert (RecordSchema.declares_iff.mp h) d)
  else .error (DefinitionFault.undeclaredField b.schema.name field).error

def get? (b : Builder) (field : String) : Option Datum := b.values.lookup field

def isSet (b : Builder) (field : String) : Bool := b.values.any (·.1 == field)

def missing (b : Builder) : List String := b.schema.fieldNames.filter fun f => !b.isSet f

def isComplete (b : Builder) : Bool := b.schema.fieldNames.all b.isSet

def size (b : Builder) : Nat := b.values.length

def entries (b : Builder) : List (String × Datum) :=
  b.schema.fieldNames.filterMap fun f => (b.get? f).map (f, ·)

def toJson (b : Builder) : Json.Value := .ofPairs (valuesToJson b.entries)

def toInstance (b : Builder) : Instance := ⟨b.schema, b.entries⟩

def finish (b : Builder) : Except ContractError Builder :=
  match b.schema.fieldNames.find? fun f => !b.isSet f with
  | some field => .error (.missingField b.schema.name field)
  | none => .ok b

/-- The same fields of one schema with the same values, in whatever order they were set. -/
def same (a b : Builder) : Bool := a.schema == b.schema && Entries.sameContent a.values b.values

end Builder

end Covenant
