import Covenant.Proofs.Outcome
import Covenant.Validation.Kinds

namespace Covenant

/-- The problem as it is reported from further out. -/
def Problem.under (outer : String) (p : Problem) : Problem := ⟨outer ++ p.path, p.message⟩

namespace Validation

open Json

theorem fieldPath_append (outer path field : String) :
    fieldPath (outer ++ path) field = outer ++ fieldPath path field := by
  simp [fieldPath, String.append_assoc, toString]

theorem itemPath_append (outer path : String) (i : Nat) :
    itemPath (outer ++ path) i = outer ++ itemPath path i := by
  simp [itemPath, String.append_assoc, toString]

theorem eachItem_mapError {check : Nat → Value → Except Problem Datum} (g : Problem → Problem)
    (i : Nat) (items : List Value) :
    eachItem (fun i x => (check i x).mapError g) i items = (eachItem check i items).mapError g := by
  induction items generalizing i with
  | nil => rfl
  | cons x rest ih =>
    rw [eachItem, eachItem, Outcome.mapError_bind]
    simp only [Outcome.mapError_bind, ih]
    rfl

mutual

theorem validateAt_under (outer path : String) : ∀ (type : FieldType) (v : Value),
    validateAt (outer ++ path) type v = (validateAt path type v).mapError (.under outer)
  | .integer, v => by
    rw [validateAt, validateAt]
    cases coerceInteger v <;> rfl
  | .text, v => rfl
  | .list item, v => by
    cases v with
    | array items =>
      -- every item has a path of its own, and the item type's statement is needed for each
      simp only [validateAt, itemPath_append, validateAt_under outer _ item, eachItem_mapError,
        Outcome.mapError_map]
    | _ => rfl
  | .record s, v => by
    rw [validateAt, validateAt, validateRecordAt_under outer path s, Outcome.mapError_map]

theorem validateRecordAt_under (outer path : String) : ∀ (s : RecordSchema) (v : Value),
    validateRecordAt (outer ++ path) s v = (validateRecordAt path s v).mapError (.under outer)
  | ⟨name, description, fields⟩, v => by
    cases v with
    | object members =>
      rw [validateRecordAt, validateRecordAt, validateFieldsAt_under outer path fields,
        Outcome.mapError_map]
    | _ => rfl

theorem validateFieldsAt_under (outer path : String) :
    ∀ (fields : List (String × FieldType)) (members : Members),
      validateFieldsAt (outer ++ path) fields members =
        (validateFieldsAt path fields members).mapError (.under outer)
  | [], members => rfl
  | (f, t) :: rest, members => by
    rw [validateFieldsAt, validateFieldsAt, fieldPath_append]
    cases members.get? f with
    | none => rfl
    | some v =>
      simp only [validateAt_under outer _ t, validateFieldsAt_under outer path rest,
        Outcome.mapError_bind]
      rfl

end

theorem validateAt_eq (path : String) (type : FieldType) (v : Value) :
    validateAt path type v = (validateAt "" type v).mapError (.under path) := by
  rw [← validateAt_under, String.append_empty]

/-- Wherever validation starts, it succeeds with the same data; when it fails, it gives the same
message, at the path that it started from and whatever follows the root in the path reported from
there. To validate by the kind of a type comes to the same. -/
theorem validation_uniform_in_path (path : String) (type : FieldType) (v : Value) :
    (∀ d, validateAt path type v = .ok d ↔ validate type v = .ok d) ∧
    (∀ p, validateAt path type v = .error p ↔
      ∃ below, p.path = path ++ below ∧ validate type v = .error ⟨"$" ++ below, p.message⟩) ∧
    type.validate v = validate type v ∧
    (∀ t : ScalarType, t.validate v = validate t.fieldType v) ∧
    (∀ t : ListType, t.validate v = validate t.fieldType v) ∧
    ∀ s : RecordSchema, (validateRecord s v).map .record = validate (.record s) v := by
  have hroot : validate type v = _ := validateAt_eq "$" type v
  refine ⟨fun d => ?_, fun p => ?_, rfl, fun t => ?_, fun t => ?_, fun s => ?_⟩
  · rw [validateAt_eq, hroot, Outcome.mapError_eq_ok, Outcome.mapError_eq_ok]
  · rw [validateAt_eq, hroot]
    simp only [Outcome.mapError_eq_error]
    constructor
    · rintro ⟨q, hq, rfl⟩
      exact ⟨q.path, rfl, q, hq, rfl⟩
    · rintro ⟨below, hp, q, hq, heq⟩
      obtain ⟨hpath, hmessage⟩ := Problem.mk.inj heq
      have hbelow : q.path = below := by simpa using hpath
      refine ⟨q, hq, ?_⟩
      rw [Problem.under, hbelow, hmessage, ← hp]
  · exact ScalarType.validateAt_eq "$" t v
  · exact ListType.validateAt_eq "$" t v
  · rw [validate, validateAt]
    rfl

end Validation

end Covenant
