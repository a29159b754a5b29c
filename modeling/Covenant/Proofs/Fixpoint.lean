import Covenant.Proofs.Assembly
import Covenant.Proofs.Rendering
import Covenant.Proofs.Tables

namespace Covenant

open Json Validation

namespace Instance

/-- The values stand in the order of the fields, as they do in every instance made by setting
fields. -/
def InOrder (r : Instance) : Prop := r = collect r.schema r.get?

theorem collect_congr {s : RecordSchema} {a b : String → Option Datum}
    (h : ∀ f ∈ s.fieldNames, a f = b f) : collect s a = collect s b := by
  refine congrArg (Instance.mk s) (List.filterMap_congr ?_)
  intro f hf
  rw [h f hf]

theorem collect_inOrder (s : RecordSchema) (source : String → Option Datum) :
    (collect s source).InOrder := by
  refine collect_congr ?_
  intro f hf
  rw [get_collect_of_mem source hf]

theorem set_declared {r : Instance} {f : String} (h : f ∈ r.schema.fieldNames) (d : Datum) :
    r.set f d = .ok (collect r.schema fun g => if g = f then some d else r.get? g) := by
  rw [set, if_pos (RecordSchema.declares_iff.mpr h)]

theorem InOrder.ext {r q : Instance} (hr : r.InOrder) (hq : q.InOrder) (hs : r.schema = q.schema)
    (h : ∀ f ∈ r.schema.fieldNames, r.get? f = q.get? f) : r = q := by
  rw [hr, hq, ← hs]
  exact collect_congr h

theorem inOrder_of_sublist (s : DeclaredSchema) {r : Instance} (hs : r.schema = s)
    (h : (r.values.map (·.1)).Sublist s.fieldNames) : r.InOrder := by
  obtain ⟨schema, values⟩ := r
  obtain rfl : schema = s := hs
  exact congrArg (Instance.mk s) (Entries.filterMap_lookup s.once h).symm

end Instance

/-- What fits a record type are the complete instances of the schema whose fields hold data of the
declared types. -/
theorem DeclaredSchema.fits_iff_complete (s : DeclaredSchema) {r : Instance} :
    s.Fits r ↔ r.schema = s ∧ r.InOrder ∧ r.isComplete = true ∧
      ∀ f t d, s.fieldType? f = some t → r.get? f = some d → t.Fits d := by
  constructor
  · intro h
    refine ⟨h.schema, ?_, h.isComplete, ?_⟩
    · exact Instance.inOrder_of_sublist s h.schema (h.fieldNames ▸ .refl _)
    · intro f t d hf hd
      obtain ⟨d', hd', hfit⟩ := h.get hf
      rw [hd, Option.some.injEq] at hd'
      rwa [hd']
  · rintro ⟨hs, horder, hcomplete, hfit⟩
    rw [Instance.isComplete, List.all_eq_true, hs] at hcomplete
    rw [horder, hs]
    apply Instance.collect_fits
    intro f t hft
    have hf : s.fieldType? f = some t := s.fieldType_eq_some.mpr hft
    obtain ⟨d, hd⟩ := Option.isSome_iff_exists.mp (hcomplete f (RecordSchema.mem_fieldNames hf))
    exact ⟨d, hd, hfit f t d hf hd⟩

namespace Validation

theorem validate_toJson (type : DeclaredType) {d : Datum} (h : type.1.Fits d) :
    validate type d.toJson = .ok d :=
  (validateAt_ok rootPath ..).mpr (type.readsBack d h)

theorem fits_of_validate {type : FieldType} {v : Value} {d : Datum}
    (h : validate type v = .ok d) : type.Fits d :=
  type.fits_of_reads v d ((validateAt_ok rootPath ..).mp h)

/-- The data that fit a type are validated from their own JSON to themselves, so what validation
returns is validated to itself; and no two of them have the same JSON. -/
theorem validated_is_fixed (type : DeclaredType) :
    (∀ d, type.1.Fits d → validate type d.toJson = .ok d) ∧
    (∀ v d, validate type v = .ok d → validate type d.toJson = .ok d) ∧
    ∀ d e, type.1.Fits d → type.1.Fits e → d.toJson = e.toJson → d = e := by
  refine ⟨fun d hd => validate_toJson type hd, ?_, ?_⟩
  · intro v d hd
    exact validate_toJson type (fits_of_validate hd)
  · intro d e hd he hjson
    have hboth : validate type e.toJson = .ok d := by rw [← hjson, validate_toJson type hd]
    exact Except.ok.inj (hboth.symm.trans (validate_toJson type he))

/-- A page of users that is coerced throughout: a number in text and a flag as identifiers, other
values as texts, a fraction as the total, and a field that is not declared. -/
theorem coerced_page_is_fixed :
    let page : FieldType := .record Sample.userList
    let sent : Value := .object
      [("total", .number (.float ⟨false, 5, -1⟩)),
        ("users", .array
          [.object [("email", .null), ("id", .string " 7 "), ("name", .bool true)],
            .object [("email", .array []), ("id", .bool true), ("name", .string "bo"),
              ("role", .int 3)]])]
    let read : Datum := .record ⟨Sample.userList,
      [("users", .list
          [.record ⟨Sample.user,
              [("id", .integer 7), ("name", .text "true"), ("email", .text "null")]⟩,
            .record ⟨Sample.user,
              [("id", .integer 1), ("name", .text "bo"), ("email", .text "[]")]⟩]),
        ("total", .integer 2)]⟩
    let shown : Value := .object
      [("total", .int 2),
        ("users", .array
          [.object [("email", .string "null"), ("id", .int 7), ("name", .string "true")],
            .object [("email", .string "[]"), ("id", .int 1), ("name", .string "bo")]])]
    page.DeclaresOnce ∧ validate page sent = .ok read ∧ read.toJson = shown ∧
      validate page shown = .ok read := by
  intro page sent read shown
  have huser : (FieldType.record Sample.user).DeclaresOnce := .ofDeclarations _ _ (by simp)
  have hpage : page.DeclaresOnce := .ofDeclarations _ _ (by simp [huser.list])
  have hsent : validate page sent = .ok read := rfl
  have hshown : read.toJson = shown := rfl
  exact ⟨hpage, hsent, hshown, (validated_is_fixed ⟨page, hpage⟩).2.1 sent read hsent⟩

end Validation

end Covenant
