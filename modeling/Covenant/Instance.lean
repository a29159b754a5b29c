import Covenant.Schema
import Covenant.Error
import Covenant.Json.Value

namespace Covenant

mutual

inductive Datum where
  | integer (n : Int)
  | text (s : String)
  | list (items : List Datum)
  | record (value : Instance)

/-- Values for some of the fields of a schema, in the order of their declaration. They are not
checked against the field types. -/
structure Instance where
  schema : RecordSchema
  values : List (String × Datum)

end

deriving instance Repr for Datum
deriving instance Repr for Instance

mutual

def Datum.same : Datum → Datum → Bool
  | .integer m, .integer n => m == n
  | .text s, .text t => s == t
  | .list a, .list b => sameItems a b
  | .record a, .record b => a.same b
  | _, _ => false

def Instance.same : Instance → Instance → Bool
  | ⟨s, vs⟩, ⟨t, ws⟩ => s == t && sameValues vs ws

def sameItems : List Datum → List Datum → Bool
  | [], [] => true
  | a :: r, b :: r' => a.same b && sameItems r r'
  | _, _ => false

def sameValues : List (String × Datum) → List (String × Datum) → Bool
  | [], [] => true
  | (f, a) :: r, (g, b) :: r' => f == g && a.same b && sameValues r r'
  | _, _ => false

end

mutual

theorem Datum.same_iff : ∀ a b : Datum, a.same b = true ↔ a = b
  | .integer n, b => by cases b <;> simp [Datum.same]
  | .text s, b => by cases b <;> simp [Datum.same]
  | .list a, b => by cases b <;> simp [Datum.same, sameItems_iff a]
  | .record a, b => by cases b <;> simp [Datum.same, Instance.same_iff a]

theorem Instance.same_iff : ∀ a b : Instance, a.same b = true ↔ a = b
  | ⟨s, vs⟩, ⟨t, ws⟩ => by simp [Instance.same, sameValues_iff vs]

theorem sameItems_iff : ∀ r r' : List Datum, sameItems r r' = true ↔ r = r'
  | [], r' => by cases r' <;> simp [sameItems]
  | a :: r, [] => by simp [sameItems]
  | a :: r, b :: r' => by simp [sameItems, Datum.same_iff a, sameItems_iff r]

theorem sameValues_iff : ∀ r r' : List (String × Datum), sameValues r r' = true ↔ r = r'
  | [], r' => by cases r' <;> simp [sameValues]
  | (f, a) :: r, [] => by simp [sameValues]
  | (f, a) :: r, (g, b) :: r' => by simp [sameValues, Datum.same_iff a, sameValues_iff r]

end

instance : DecidableEq Datum := fun a b => decidable_of_iff _ (Datum.same_iff a b)

instance : DecidableEq Instance := fun a b => decidable_of_iff _ (Instance.same_iff a b)

mutual

def Datum.toJson : Datum → Json.Value
  | .integer n => .int n
  | .text s => .string s
  | .list items => .array (itemsToJson items)
  | .record r => r.toJson

def Instance.toJson : Instance → Json.Value
  | ⟨_, values⟩ => .ofPairs (valuesToJson values)

def itemsToJson : List Datum → List Json.Value
  | [] => []
  | d :: rest => d.toJson :: itemsToJson rest

def valuesToJson : List (String × Datum) → List (String × Json.Value)
  | [] => []
  | (f, d) :: rest => (f, d.toJson) :: valuesToJson rest

end

namespace Instance

def collect (schema : RecordSchema) (source : String → Option Datum) : Instance :=
  ⟨schema, schema.fieldNames.filterMap fun f => (source f).map (f, ·)⟩

def empty (schema : RecordSchema) : Instance := ⟨schema, []⟩

def get? (r : Instance) (field : String) : Option Datum := r.values.lookup field

def isSet (r : Instance) (field : String) : Bool := (r.get? field).isSome

def missing (r : Instance) : List String := r.schema.fieldNames.filter fun f => !r.isSet f

def isComplete (r : Instance) : Bool := r.schema.fieldNames.all r.isSet

def size (r : Instance) : Nat := r.values.length

/-- Only a field that the schema declares can be set. -/
def set (r : Instance) (field : String) (d : Datum) : Except ContractError Instance :=
  if r.schema.declares field then
    .ok (collect r.schema fun f => if f = field then some d else r.get? f)
  else .error (DefinitionFault.undeclaredField r.schema.name field).error

def finish (r : Instance) : Except ContractError Instance :=
  match r.missing with
  | [] => .ok r
  | field :: _ => .error (.missingField r.schema.name field)

end Instance

namespace Datum

def integer? : Datum → Option Int
  | .integer n => some n
  | _ => none

def text? : Datum → Option String
  | .text s => some s
  | _ => none

def list? : Datum → Option (List Datum)
  | .list items => some items
  | _ => none

def record? : Datum → Option Instance
  | .record r => some r
  | _ => none

end Datum

end Covenant
