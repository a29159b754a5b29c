import Covenant.Proofs.Tables
import Covenant.Schema

namespace Covenant

namespace RecordSchema

variable (name : String) (description : Option String)

theorem fieldNames_declare (s : RecordSchema) (field : String) (type : FieldType) :
    (s.declare field type).fieldNames =
      if field ∈ s.fieldNames then s.fieldNames else s.fieldNames ++ [field] := by
  split
  · next h => exact Entries.keys_put_of_mem h type
  · next h =>
    rw [fieldNames, declare, Entries.put_of_notMem h type, List.map_append]
    rfl

theorem fieldType_declare (s : RecordSchema) (field other : String) (type : FieldType) :
    (s.declare field type).fieldType? other =
      if other = field then some type else s.fieldType? other := by
  rw [fieldType?, declare, Entries.lookup_put, ← fieldType?]
  simp only [beq_iff_eq]

theorem ofDeclarations_eq (declarations : List (String × FieldType)) :
    ofDeclarations name description declarations =
      ⟨name, description, Entries.ofList declarations⟩ := by
  induction declarations using List.reverseRecOn with
  | nil => rfl
  | append_singleton declarations e ih =>
    rw [ofDeclarations] at ih
    rw [ofDeclarations, List.foldl_append, ih, Entries.ofList_append]
    rfl

theorem fields_ofDeclarations (declarations : List (String × FieldType)) :
    (ofDeclarations name description declarations).fields = Entries.ofList declarations := by
  rw [ofDeclarations_eq]

theorem fieldNames_ofDeclarations (declarations : List (String × FieldType)) :
    (ofDeclarations name description declarations).fieldNames =
      (declarations.map (·.1)).eraseDups := by
  rw [fieldNames, fields_ofDeclarations, Entries.keys_ofList]

theorem nodup_ofDeclarations (declarations : List (String × FieldType)) :
    (ofDeclarations name description declarations).fieldNames.Nodup := by
  rw [fieldNames, fields_ofDeclarations]
  exact Entries.nodup_ofList declarations

theorem fieldType_ofDeclarations (declarations : List (String × FieldType)) (field : String) :
    (ofDeclarations name description declarations).fieldType? field =
      declarations.reverse.lookup field := by
  rw [fieldType?, fields_ofDeclarations, Entries.lookup_ofList]

end RecordSchema

/-- Schemas as declarations build them, with each field once. -/
structure DeclaredSchema extends RecordSchema where
  once : toRecordSchema.fieldNames.Nodup

instance : Coe DeclaredSchema RecordSchema := ⟨DeclaredSchema.toRecordSchema⟩

namespace DeclaredSchema

variable (s : DeclaredSchema) {field : String} {type : FieldType}

def ofDeclarations (name : String) (description : Option String)
    (declarations : List (String × FieldType)) : DeclaredSchema where
  toRecordSchema := .ofDeclarations name description declarations
  once := RecordSchema.nodup_ofDeclarations name description declarations

/-- Every schema that has its fields once is built by declaring them. -/
theorem eq_ofDeclarations :
    s.toRecordSchema = .ofDeclarations s.name s.description s.fields := by
  rw [RecordSchema.ofDeclarations_eq, Entries.ofList_of_nodup s.once]
  cases s.toRecordSchema
  rfl

theorem fieldType_eq_some : s.fieldType? field = some type ↔ (field, type) ∈ s.fields :=
  Entries.lookup_eq_some_iff s.once

theorem sameShape_iff {t : RecordSchema} :
    s.sameShape t = true ↔
      s.fieldNames = t.fieldNames ∧ ∀ field, s.fieldType? field = t.fieldType? field := by
  rw [RecordSchema.sameShape, beq_iff_eq]
  constructor
  · intro h
    exact ⟨congrArg (List.map Prod.fst) h, fun field => congrArg (List.lookup field) h⟩
  · rintro ⟨hnames, htypes⟩
    exact Entries.eq_of_lookup s.once hnames htypes

end DeclaredSchema

/-- Whatever is declared, and how often, the fields come in the order of their first declaration,
each once and with the type of its last, and lookups find just these. One more declaration of a field
gives it another type in its place, or puts it behind all others. Two schemas have the same shape
just if the first declarations come in the same order and the last give the same types. -/
theorem RecordSchema.declarations_decide_fields (name : String) (description : Option String)
    (declarations : List (String × FieldType)) :
    let s := ofDeclarations name description declarations
    (s.fieldNames.Nodup ∧ s.fieldNames = (declarations.map (·.1)).eraseDups) ∧
    (∀ field type, (field, type) ∈ s.fields ↔
      ∃ before after, declarations = before ++ (field, type) :: after ∧
        field ∉ after.map (·.1)) ∧
    ((∀ field type, s.fieldType? field = some type ↔ (field, type) ∈ s.fields) ∧
      ∀ field, s.declares field = true ↔ field ∈ s.fieldNames) ∧
    (∀ field type,
      (s.declare field type).fieldNames =
        (if field ∈ s.fieldNames then s.fieldNames else s.fieldNames ++ [field]) ∧
      ∀ other, (s.declare field type).fieldType? other =
        if other = field then some type else s.fieldType? other) ∧
    ∀ name' description' declarations',
      s.sameShape (ofDeclarations name' description' declarations') = true ↔
        (declarations.map (·.1)).eraseDups = (declarations'.map (·.1)).eraseDups ∧
        ∀ field, declarations.reverse.lookup field = declarations'.reverse.lookup field := by
  intro s
  let declared := DeclaredSchema.ofDeclarations name description declarations
  refine ⟨⟨declared.once, fieldNames_ofDeclarations name description declarations⟩, ?_,
    ⟨fun _ _ => declared.fieldType_eq_some, fun _ => declares_iff⟩,
    fun field type => ⟨s.fieldNames_declare field type, (s.fieldType_declare field · type)⟩, ?_⟩
  · intro field type
    refine declared.fieldType_eq_some.symm.trans ?_
    have hfields : declared.fields = Entries.ofList declarations := fields_ofDeclarations ..
    rw [fieldType?, hfields]
    exact Entries.lookup_ofList_eq_some
  · intro name' description' declarations'
    refine declared.sameShape_iff.trans ?_
    simp only [declared, DeclaredSchema.ofDeclarations, fieldNames_ofDeclarations,
      fieldType_ofDeclarations]

example : (RecordSchema.ofDeclarations "User" none
    [("id", .integer), ("name", .text), ("id", .text)]).fields =
      [("id", .text), ("name", .text)] := by decide

/-- The types whose records, inside one another too, have each of their fields once. -/
inductive FieldType.DeclaresOnce : FieldType → Prop
  | integer : DeclaresOnce .integer
  | text : DeclaresOnce .text
  | list {item : FieldType} (h : item.DeclaresOnce) : DeclaresOnce (.list item)
  | record {s : RecordSchema} (once : s.fieldNames.Nodup)
      (types : ∀ e ∈ s.fields, e.2.DeclaresOnce) : DeclaresOnce (.record s)

attribute [simp] FieldType.DeclaresOnce.integer FieldType.DeclaresOnce.text

theorem FieldType.declaresOnce_record {s : RecordSchema} :
    (FieldType.record s).DeclaresOnce ↔
      s.fieldNames.Nodup ∧ ∀ e ∈ s.fields, e.2.DeclaresOnce := by
  constructor
  · rintro (_ | _ | _ | ⟨once, types⟩)
    exact ⟨once, types⟩
  · rintro ⟨once, types⟩
    exact .record once types

theorem FieldType.DeclaresOnce.ofDeclarations (name : String) (description : Option String)
    {declarations : List (String × FieldType)} (h : ∀ e ∈ declarations, e.2.DeclaresOnce) :
    (FieldType.record (.ofDeclarations name description declarations)).DeclaresOnce := by
  refine .record (RecordSchema.nodup_ofDeclarations name description declarations) ?_
  rw [RecordSchema.fields_ofDeclarations]
  exact fun e he => h e (Entries.mem_of_mem_ofList he)

/-- Types that declarations build. -/
abbrev DeclaredType := {type : FieldType // type.DeclaresOnce}

end Covenant
