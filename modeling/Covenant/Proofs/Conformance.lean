import Covenant.Proofs.Outcome
import Covenant.Validation
import Mathlib.Data.List.Forall2

namespace Covenant

open Json Validation

mutual

/-- The JSON values that a position of the type takes. -/
def FieldType.Accepts : FieldType → Value → Prop
  | .integer, v => ∃ n, coerceInteger v = .ok n
  | .text, _ => True
  | .list item, v => ∃ items, v = .array items ∧ ∀ x ∈ items, item.Accepts x
  | .record s, v => s.Accepts v

def RecordSchema.Accepts : RecordSchema → Value → Prop
  | ⟨_, _, fields⟩, v => ∃ members, v = .object members ∧ AcceptsFields fields members

def AcceptsFields : List (String × FieldType) → Members → Prop
  | [], _ => True
  | (f, t) :: rest, members =>
    (∃ v, members.get? f = some v ∧ t.Accepts v) ∧ AcceptsFields rest members

end

mutual

/-- The data that fit a position of the type. -/
def FieldType.Fits : FieldType → Datum → Prop
  | .integer, .integer n => Text.fitsInt64 n = true
  | .text, .text _ => True
  | .list item, .list ds => ∀ d ∈ ds, item.Fits d
  | .record s, .record r => s.Fits r
  | _, _ => False

def RecordSchema.Fits : RecordSchema → Instance → Prop
  | ⟨name, description, fields⟩, r =>
    r.schema = ⟨name, description, fields⟩ ∧ FitsFields fields r.values

/-- One datum for each field, in the order of the fields. -/
def FitsFields : List (String × FieldType) → List (String × Datum) → Prop
  | [], [] => True
  | (f, t) :: rest, (g, d) :: values => g = f ∧ t.Fits d ∧ FitsFields rest values
  | _, _ => False

end

mutual

/-- The datum that a JSON value stands for at a position of the type. -/
def FieldType.Reads : FieldType → Value → Datum → Prop
  | .integer, v, d => ∃ n, coerceInteger v = .ok n ∧ d = .integer n
  | .text, v, d => d = .text (coerceText v)
  | .list item, v, d =>
    ∃ items ds, v = .array items ∧ d = .list ds ∧ List.Forall₂ item.Reads items ds
  | .record s, v, d => ∃ r, d = .record r ∧ s.Reads v r

def RecordSchema.Reads : RecordSchema → Value → Instance → Prop
  | ⟨name, description, fields⟩, v, r =>
    ∃ members, v = .object members ∧ r.schema = ⟨name, description, fields⟩ ∧
      ReadsFields fields members r.values

def ReadsFields : List (String × FieldType) → Members → List (String × Datum) → Prop
  | [], _, values => values = []
  | (f, t) :: rest, members, values =>
    ∃ v d more, members.get? f = some v ∧ t.Reads v d ∧ ReadsFields rest members more ∧
      values = (f, d) :: more

end

theorem eachItem_ok {check : Nat → Value → Except Problem Datum} {R : Value → Datum → Prop}
    (h : ∀ i x d, check i x = .ok d ↔ R x d) (i : Nat) (items : List Value) (ds : List Datum) :
    eachItem check i items = .ok ds ↔ List.Forall₂ R items ds := by
  induction items generalizing i ds with
  | nil => simp [eachItem, eq_comm]
  | cons x rest ih =>
    simp only [eachItem, Outcome.bind_eq_ok, Outcome.pure_eq_ok, h, ih,
      List.forall₂_cons_left_iff]
    constructor
    · rintro ⟨d, hd, more, hm, rfl⟩
      exact ⟨d, more, hd, hm, rfl⟩
    · rintro ⟨d, more, hd, hm, rfl⟩
      exact ⟨d, hd, more, hm, rfl⟩

mutual

theorem validateAt_ok (path : String) :
    ∀ (type : FieldType) (v : Value) (d : Datum), validateAt path type v = .ok d ↔ type.Reads v d
  | .integer, v, d => by
    cases h : coerceInteger v <;> simp [validateAt, FieldType.Reads, h, eq_comm]
  | .text, v, d => by simp [validateAt, FieldType.Reads, eq_comm]
  | .list item, v, d => by
    cases v with
    | array items =>
      -- each item has a path of its own, so the item type's statement is needed for every path
      simp only [validateAt, FieldType.Reads, Outcome.map_eq_ok,
        eachItem_ok (fun i x d => validateAt_ok (itemPath path i) item x d)]
      constructor
      · rintro ⟨ds, hds, rfl⟩
        exact ⟨items, ds, rfl, rfl, hds⟩
      · rintro ⟨_, ds, ⟨rfl⟩, rfl, hds⟩
        exact ⟨ds, hds, rfl⟩
    | _ => simp [validateAt, FieldType.Reads]
  | .record s, v, d => by
    simp only [validateAt, FieldType.Reads, Outcome.map_eq_ok, validateRecordAt_ok path s v]
    constructor
    · rintro ⟨r, hr, rfl⟩
      exact ⟨r, rfl, hr⟩
    · rintro ⟨r, rfl, hr⟩
      exact ⟨r, hr, rfl⟩

theorem validateRecordAt_ok (path : String) :
    ∀ (s : RecordSchema) (v : Value) (r : Instance),
      validateRecordAt path s v = .ok r ↔ s.Reads v r
  | ⟨name, description, fields⟩, v, ⟨schema, values⟩ => by
    cases v with
    | object members =>
      simp only [validateRecordAt, RecordSchema.Reads, Outcome.map_eq_ok,
        validateFieldsAt_ok path fields members]
      constructor
      · rintro ⟨_, hv, ⟨rfl⟩⟩
        exact ⟨members, rfl, rfl, hv⟩
      · rintro ⟨_, ⟨rfl⟩, rfl, hv⟩
        exact ⟨values, hv, rfl⟩
    | _ => simp [validateRecordAt, RecordSchema.Reads]

theorem validateFieldsAt_ok (path : String) :
    ∀ (fields : List (String × FieldType)) (members : Members) (values : List (String × Datum)),
      validateFieldsAt path fields members = .ok values ↔ ReadsFields fields members values
  | [], members, values => by simp [validateFieldsAt, ReadsFields, eq_comm]
  | (f, t) :: rest, members, values => by
    cases hf : members.get? f with
    | none => simp [validateFieldsAt, ReadsFields, hf]
    | some v =>
      simp only [validateFieldsAt, ReadsFields, hf, Outcome.bind_eq_ok, Outcome.pure_eq_ok,
        validateAt_ok (fieldPath path f) t v, validateFieldsAt_ok path rest members]
      constructor
      · rintro ⟨d, hd, more, hm, rfl⟩
        exact ⟨v, d, more, rfl, hd, hm, rfl⟩
      · rintro ⟨_, d, more, ⟨rfl⟩, hd, hm, rfl⟩
        exact ⟨d, hd, more, hm, rfl⟩

end

theorem exists_forall₂ {R : Value → Datum → Prop} (items : List Value) :
    (∃ ds, List.Forall₂ R items ds) ↔ ∀ x ∈ items, ∃ d, R x d := by
  induction items with
  | nil => simp
  | cons x rest ih =>
    simp only [List.forall₂_cons_left_iff, List.forall_mem_cons, ← ih]
    constructor
    · rintro ⟨_, d, ds, hd, hds, rfl⟩
      exact ⟨⟨d, hd⟩, ds, hds⟩
    · rintro ⟨⟨d, hd⟩, ds, hds⟩
      exact ⟨_, d, ds, hd, hds, rfl⟩

mutual

theorem FieldType.exists_reads :
    ∀ (type : FieldType) (v : Value), (∃ d, type.Reads v d) ↔ type.Accepts v
  | .integer, v => by simp [FieldType.Reads, FieldType.Accepts, exists_comm (α := Datum)]
  | .text, v => by simp [FieldType.Reads, FieldType.Accepts]
  | .list item, v => by
    simp only [FieldType.Reads, FieldType.Accepts, ← fun x => item.exists_reads x, ← exists_forall₂]
    constructor
    · rintro ⟨_, items, ds, rfl, rfl, h⟩
      exact ⟨items, rfl, ds, h⟩
    · rintro ⟨items, rfl, ds, h⟩
      exact ⟨.list ds, items, ds, rfl, rfl, h⟩
  | .record s, v => by
    simp only [FieldType.Reads, FieldType.Accepts, ← s.exists_reads v]
    constructor
    · rintro ⟨_, r, rfl, h⟩
      exact ⟨r, h⟩
    · rintro ⟨r, h⟩
      exact ⟨.record r, r, rfl, h⟩

theorem RecordSchema.exists_reads :
    ∀ (s : RecordSchema) (v : Value), (∃ r, s.Reads v r) ↔ s.Accepts v
  | ⟨name, description, fields⟩, v => by
    simp only [RecordSchema.Reads, RecordSchema.Accepts]
    constructor
    · rintro ⟨r, members, rfl, -, h⟩
      exact ⟨members, rfl, (exists_readsFields fields members).mp ⟨r.values, h⟩⟩
    · rintro ⟨members, rfl, h⟩
      obtain ⟨values, hv⟩ := (exists_readsFields fields members).mpr h
      exact ⟨⟨⟨name, description, fields⟩, values⟩, members, rfl, rfl, hv⟩

theorem exists_readsFields :
    ∀ (fields : List (String × FieldType)) (members : Members),
      (∃ values, ReadsFields fields members values) ↔ AcceptsFields fields members
  | [], members => by simp [ReadsFields, AcceptsFields]
  | (f, t) :: rest, members => by
    simp only [ReadsFields, AcceptsFields, ← exists_readsFields rest members,
      ← fun x => t.exists_reads x]
    constructor
    · rintro ⟨_, v, d, more, hf, hd, hm, rfl⟩
      exact ⟨⟨v, hf, d, hd⟩, more, hm⟩
    · rintro ⟨⟨v, hf, d, hd⟩, more, hm⟩
      exact ⟨_, v, d, more, hf, hd, hm, rfl⟩

end

theorem FieldType.reads_inj {type : FieldType} {v : Value} {d e : Datum} (h : type.Reads v d)
    (g : type.Reads v e) : d = e := by
  rw [← validateAt_ok rootPath] at h g
  exact Except.ok.inj (h.symm.trans g)

theorem FieldType.accepts_iff (path : String) {type : FieldType} {v : Value} :
    type.Accepts v ↔ ∃ d, validateAt path type v = .ok d := by
  simp only [validateAt_ok, type.exists_reads]

theorem FieldType.not_accepts_iff (path : String) {type : FieldType} {v : Value} :
    ¬type.Accepts v ↔ ∃ p, validateAt path type v = .error p := by
  rw [type.accepts_iff path]
  cases validateAt path type v <;> simp

theorem RecordSchema.accepts_iff {s : RecordSchema} {v : Value} :
    s.Accepts v ↔ (validateRecord s v).toOption.isSome = true := by
  rw [← s.exists_reads, validateRecord]
  simp only [← validateRecordAt_ok rootPath]
  cases validateRecordAt rootPath s v <;> simp [Except.toOption]

instance (s : RecordSchema) (v : Value) : Decidable (s.Accepts v) :=
  decidable_of_iff _ RecordSchema.accepts_iff.symm

theorem fitsInt64_iff {n : Int} :
    Text.fitsInt64 n = true ↔ Binary64.leastInt64 ≤ n ∧ n ≤ Binary64.greatestInt64 := by
  rw [Text.fitsInt64, Bool.and_eq_true, decide_eq_true_eq, decide_eq_true_eq,
    Binary64.leastInt64, Binary64.greatestInt64, Int.le_sub_one_iff]

theorem saturate_fits (n : Int) : Text.fitsInt64 (Binary64.saturate n) = true := by
  have hbounds : Binary64.leastInt64 ≤ Binary64.greatestInt64 := by decide
  rw [fitsInt64_iff, Binary64.saturate]
  omega

theorem toInt64_fits {x : Binary64} {n : Int} (h : x.toInt64? = some n) :
    Text.fitsInt64 n = true := by
  simp only [Binary64.toInt64?, Option.bind_eq_bind, Option.bind_eq_some_iff,
    Option.ite_none_right_eq_some, Option.some_inj] at h
  obtain ⟨low, -, high, -, -, rfl⟩ := h
  exact saturate_fits _

theorem coerceInteger_fits {v : Value} {n : Int} (h : coerceInteger v = .ok n) :
    Text.fitsInt64 n = true := by
  unfold coerceInteger at h
  split at h
  · split at h <;> simp_all
  · next x =>
    cases hx : x.toInt64? with
    | none => simp [hx] at h
    | some m =>
      simp only [hx, Except.ok.injEq] at h
      subst h
      exact toInt64_fits hx
  · next b =>
    cases b <;> cases h <;> rfl
  · next s =>
    cases hs : Text.int64? s with
    | none => simp [hs] at h
    | some m =>
      simp only [hs, Except.ok.injEq] at h
      subst h
      exact (Option.filter_eq_some_iff.mp hs).2
  · simp at h

theorem forall_mem_of_forall₂ {R : Value → Datum → Prop} {P : Datum → Prop}
    (h : ∀ x d, R x d → P d) {items : List Value} {ds : List Datum}
    (hds : List.Forall₂ R items ds) : ∀ d ∈ ds, P d := by
  induction hds with
  | nil => simp
  | cons hx _ ih => exact List.forall_mem_cons.mpr ⟨h _ _ hx, ih⟩

mutual

theorem FieldType.fits_of_reads :
    ∀ (type : FieldType) (v : Value) (d : Datum), type.Reads v d → type.Fits d
  | .integer, v, d, h => by
    obtain ⟨n, hn, rfl⟩ := h
    exact coerceInteger_fits hn
  | .text, v, d, h => by
    cases h
    trivial
  | .list item, v, d, h => by
    obtain ⟨items, ds, rfl, rfl, hds⟩ := h
    exact forall_mem_of_forall₂ (item.fits_of_reads · ·) hds
  | .record s, v, d, h => by
    obtain ⟨r, rfl, hr⟩ := h
    exact s.fits_of_reads v r hr

theorem RecordSchema.fits_of_reads :
    ∀ (s : RecordSchema) (v : Value) (r : Instance), s.Reads v r → s.Fits r
  | ⟨_, _, fields⟩, v, r, h => by
    obtain ⟨members, -, hs, hv⟩ := h
    exact ⟨hs, fitsFields_of_reads fields members r.values hv⟩

theorem fitsFields_of_reads :
    ∀ (fields : List (String × FieldType)) (members : Members) (values : List (String × Datum)),
      ReadsFields fields members values → FitsFields fields values
  | [], members, values, h => by
    cases h
    trivial
  | (f, t) :: rest, members, values, h => by
    obtain ⟨v, d, more, -, hd, hm, rfl⟩ := h
    exact ⟨rfl, t.fits_of_reads v d hd, fitsFields_of_reads rest members more hm⟩

end

theorem FitsFields.keys {fields : List (String × FieldType)} {values : List (String × Datum)}
    (h : FitsFields fields values) : values.map (·.1) = fields.map (·.1) := by
  induction fields generalizing values with
  | nil => cases values <;> simp_all [FitsFields]
  | cons e rest ih =>
    cases values with
    | nil => simp [FitsFields] at h
    | cons e' more =>
      obtain ⟨hf, -, hm⟩ := h
      simp [hf, ih hm]

theorem FitsFields.lookup {fields : List (String × FieldType)} {values : List (String × Datum)}
    (h : FitsFields fields values) {f : String} {t : FieldType} (hf : fields.lookup f = some t) :
    ∃ d, values.lookup f = some d ∧ t.Fits d := by
  induction fields generalizing values with
  | nil => simp at hf
  | cons e rest ih =>
    cases values with
    | nil => simp [FitsFields] at h
    | cons e' more =>
      obtain ⟨he, hd, hm⟩ := h
      rw [List.lookup_cons] at hf ⊢
      rw [he]
      split at hf
      · cases hf
        exact ⟨e'.2, rfl, hd⟩
      · exact ih hm hf

namespace RecordSchema

variable {s : RecordSchema} {r : Instance}

theorem declares_of_fieldType {f : String} {t : FieldType} (h : s.fieldType? f = some t) :
    s.declares f = true := by
  rw [declares, h]
  rfl

theorem mem_fieldNames {f : String} {t : FieldType} (h : s.fieldType? f = some t) :
    f ∈ s.fieldNames := declares_iff.mp (declares_of_fieldType h)

theorem fits_iff : s.Fits r ↔ r.schema = s ∧ FitsFields s.fields r.values := by
  cases s
  rfl

theorem Fits.schema (h : s.Fits r) : r.schema = s := (fits_iff.mp h).1

theorem Fits.fieldNames (h : s.Fits r) : r.values.map (·.1) = s.fieldNames := (fits_iff.mp h).2.keys

theorem Fits.get (h : s.Fits r) {f : String} {t : FieldType} (hf : s.fieldType? f = some t) :
    ∃ d, r.get? f = some d ∧ t.Fits d := (fits_iff.mp h).2.lookup hf

theorem Fits.isSet (h : s.Fits r) {f : String} (hf : f ∈ s.fieldNames) : r.isSet f = true := by
  rw [Instance.isSet, Instance.get?, Entries.lookup_isSome, h.fieldNames]
  exact hf

theorem Fits.isComplete (h : s.Fits r) : r.isComplete = true := by
  rw [Instance.isComplete, h.schema, List.all_eq_true]
  exact fun _ hf => h.isSet hf

theorem Fits.missing (h : s.Fits r) : r.missing = [] := by
  rw [Instance.missing, h.schema, List.filter_eq_nil_iff]
  intro f hf
  simp [h.isSet hf]

end RecordSchema

/-- Validation succeeds on the accepted values and on no others; what it returns is what the value
reads as, list for list and item for item, and fits the type. Whatever fits a record type, at any
depth, is an instance of that schema with exactly the declared fields set, in their order. -/
theorem validate_accepts_reads_fits (type : FieldType) (v : Value) :
    ((∃ d, validate type v = .ok d) ↔ type.Accepts v) ∧
    (∀ d, validate type v = .ok d ↔ type.Reads v d) ∧
    (∀ d, validate type v = .ok d → type.Fits d) ∧
    ∀ (s : RecordSchema) (r : Instance), s.Fits r →
      r.schema = s ∧ r.isComplete = true ∧ r.missing = [] ∧
      r.values.map (·.1) = s.fieldNames ∧
      ∀ f t, s.fieldType? f = some t → ∃ d, r.get? f = some d ∧ t.Fits d := by
  have hr : ∀ d, validate type v = .ok d ↔ type.Reads v d := validateAt_ok rootPath type v
  refine ⟨?_, hr, ?_, ?_⟩
  · simp only [hr]
    exact type.exists_reads v
  · intro d hd
    exact type.fits_of_reads v d ((hr d).mp hd)
  · intro s r h
    exact ⟨h.schema, h.isComplete, h.missing, h.fieldNames, fun _ _ hf => h.get hf⟩

end Covenant
