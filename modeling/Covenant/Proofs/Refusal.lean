import Covenant.Proofs.Location

namespace Covenant

open Json

/-- The first of a list that has the property. -/
inductive FirstOf {α : Type} (P : α → Prop) : List α → α → Prop
  | head {x : α} {rest : List α} (h : P x) : FirstOf P (x :: rest) x
  | tail {x y : α} {rest : List α} (h : ¬P y) (more : FirstOf P rest x) : FirstOf P (y :: rest) x

namespace FirstOf

variable {α : Type} {P : α → Prop} {l : List α} {x : α}

theorem mem (h : FirstOf P l x) : x ∈ l := by
  induction h with
  | head => exact List.mem_cons_self
  | tail _ _ ih => exact List.mem_cons_of_mem _ ih

theorem holds (h : FirstOf P l x) : P x := by
  induction h with
  | head h => exact h
  | tail _ _ ih => exact ih

theorem filter {p : α → Bool} (h : FirstOf (fun x => p x = true) l x) :
    ∃ rest, l.filter p = x :: rest := by
  induction h with
  | @head x rest h => exact ⟨rest.filter p, List.filter_cons_of_pos h⟩
  | tail h _ ih =>
    rw [List.filter_cons_of_neg h]
    exact ih

theorem none_or_exists (P : α → Prop) (l : List α) : (∀ x ∈ l, ¬P x) ∨ ∃ x, FirstOf P l x := by
  induction l with
  | nil => simp
  | cons y rest ih =>
    by_cases hy : P y
    · exact .inr ⟨y, .head hy⟩
    · refine ih.imp (fun h => List.forall_mem_cons.mpr ⟨hy, h⟩) ?_
      rintro ⟨x, hx⟩
      exact ⟨x, .tail hy hx⟩

end FirstOf

namespace Extraction

open Validation

/-- A field whose value is not accepted, or which has none although absence is rejected. -/
def Refused (source : String → Option Value) (reject : Bool) (e : String × FieldType) : Prop :=
  match source e.1 with
  | some v => ¬e.2.Accepts v
  | none => reject = true

def Reported (source : String → Option Value) (absence : String) (e : String × FieldType)
    (p : Problem) : Prop :=
  match source e.1 with
  | some v => validateAt (fieldPath rootPath e.1) e.2 v = .error p
  | none => p = ⟨fieldPath rootPath e.1, absence⟩

/-- A field of the part, which its source has a value for, and the datum that the value reads as. -/
def Supplies (part : Option RecordSchema) (source : String → Option Value) (f : String)
    (d : Datum) : Prop :=
  ∃ s t v, part = some s ∧ s.fieldType? f = some t ∧ source f = some v ∧ t.Reads v d

variable {source : String → Option Value} {reject : Bool} {absence : String}
  {fs : List (String × FieldType)} {e : String × FieldType} {s : RecordSchema}

theorem Supplies.declared {part : Option RecordSchema} {f : String} {d : Datum}
    (h : Supplies part source f d) : ∃ s, part = some s ∧ f ∈ s.fieldNames := by
  obtain ⟨s, t, v, hs, ht, -, -⟩ := h
  exact ⟨s, hs, RecordSchema.mem_fieldNames ht⟩

theorem refused_of_none (h : source e.1 = none) : Refused source reject e ↔ reject = true := by
  rw [Refused, h]

theorem refused_of_some {v : Value} (h : source e.1 = some v) :
    Refused source reject e ↔ ¬e.2.Accepts v := by
  rw [Refused, h]

theorem Reported.within {p : Problem} (h : Reported source absence e p) :
    Within (fieldPath rootPath e.1) p.path := by
  unfold Reported at h
  split at h
  · exact validateAt_within _ _ _ _ h
  · subst h
    exact .refl _

theorem fields_cons_of_not_refused (h : ¬Refused source reject e) (absence : String)
    (fs : List (String × FieldType)) :
    fields source reject absence (e :: fs) = fields source reject absence fs ∨
    ∃ d, fields source reject absence (e :: fs) =
      (fields source reject absence fs).map ((e.1, d) :: ·) := by
  cases hs : source e.1 with
  | none =>
    rw [refused_of_none hs] at h
    exact .inl (by simp [fields, hs, h])
  | some v =>
    rw [refused_of_some hs, not_not, FieldType.accepts_iff (fieldPath rootPath e.1)] at h
    obtain ⟨d, hd⟩ := h
    exact .inr ⟨d, by simp [fields, hs, hd]⟩

theorem fields_of_first (h : FirstOf (Refused source reject) fs e) (absence : String) :
    ∃ p, fields source reject absence fs = .error (.request p) ∧ Reported source absence e p := by
  induction h with
  | @head e rest h =>
    cases hs : source e.1 with
    | none =>
      rw [refused_of_none hs] at h
      exact ⟨⟨fieldPath rootPath e.1, absence⟩, by simp [fields, hs, h], by simp [Reported, hs]⟩
    | some v =>
      rw [refused_of_some hs, FieldType.not_accepts_iff (fieldPath rootPath e.1)] at h
      obtain ⟨p, hp⟩ := h
      exact ⟨p, by simp [fields, hs, hp], by simp [Reported, hs, hp]⟩
  | tail h _ ih =>
    obtain ⟨p, hp, hreported⟩ := ih
    refine ⟨p, ?_, hreported⟩
    rcases fields_cons_of_not_refused h absence _ with heq | ⟨d, heq⟩
    · rw [heq, hp]
    · rw [heq, hp]
      rfl

theorem fields_of_none_refused (h : ∀ e ∈ fs, ¬Refused source reject e) (absence : String) :
    ∃ values, fields source reject absence fs = .ok values := by
  induction fs with
  | nil => exact ⟨[], rfl⟩
  | cons e rest ih =>
    obtain ⟨he, hrest⟩ := List.forall_mem_cons.mp h
    obtain ⟨values, hv⟩ := ih hrest
    rcases fields_cons_of_not_refused he absence rest with heq | ⟨d, heq⟩
    · exact ⟨values, by rw [heq, hv]⟩
    · exact ⟨(e.1, d) :: values, by rw [heq, hv]; rfl⟩

theorem record_of_first (h : FirstOf (Refused source reject) s.fields e) (absence : String) :
    ∃ p, record s source reject absence = .error (.request p) ∧ Reported source absence e p := by
  obtain ⟨p, hp, hreported⟩ := fields_of_first h absence
  exact ⟨p, by rw [record, hp]; rfl, hreported⟩

theorem record_of_none_refused (h : ∀ e ∈ s.fields, ¬Refused source reject e)
    (absence : String) :
    ∃ r, record s source reject absence = .ok r := by
  obtain ⟨values, hv⟩ := fields_of_none_refused h absence
  exact ⟨⟨s, values⟩, by rw [record, hv]; rfl⟩

theorem none_refused_of_record {r : Instance} (h : record s source reject absence = .ok r) :
    ∀ e ∈ s.fields, ¬Refused source reject e := by
  rcases FirstOf.none_or_exists (Refused source reject) s.fields with hnone | ⟨e, he⟩
  · exact hnone
  · obtain ⟨p, hp, -⟩ := record_of_first he absence
    rw [hp] at h
    cases h

theorem first_of_record_error {err : ContractError}
    (h : record s source reject absence = .error err) :
    ∃ e p, FirstOf (Refused source reject) s.fields e ∧ err = .request p ∧
      Reported source absence e p := by
  rcases FirstOf.none_or_exists (Refused source reject) s.fields with hnone | ⟨e, he⟩
  · obtain ⟨r, hr⟩ := record_of_none_refused hnone absence
    rw [hr] at h
    cases h
  · obtain ⟨p, hp, hreported⟩ := record_of_first he absence
    rw [hp, Except.error.injEq] at h
    exact ⟨e, p, he, h.symm, hreported⟩

theorem isSome_of_not_refused (h : ¬Refused source true e) : (source e.1).isSome = true := by
  cases hs : source e.1 with
  | none => exact absurd ((refused_of_none hs).mpr rfl) h
  | some v => rfl

theorem record_isSet_of_strict {r : Instance} (h : record s source true absence = .ok r)
    {f : String} (hf : f ∈ s.fieldNames) : r.isSet f = true := by
  obtain ⟨e, he, rfl⟩ := List.mem_map.mp hf
  exact record_isSet h hf (isSome_of_not_refused (none_refused_of_record h e he))

/-- The instance of a part sets what its source supplies and nothing else. -/
theorem record_get {r : Instance} (h : record s source reject absence = .ok r) {f : String}
    {d : Datum} : r.get? f = some d ↔ Supplies (some s) source f d := by
  rw [record, Outcome.map_eq_ok] at h
  obtain ⟨values, hv, rfl⟩ := h
  constructor
  · intro hd
    obtain ⟨t, v, ht, hs, hr⟩ := fields_reads hv hd
    exact ⟨s, t, v, rfl, ht, hs, hr⟩
  · rintro ⟨_, t, v, ⟨rfl⟩, ht, hs, hr⟩
    have hset := fields_supplied hv (RecordSchema.mem_fieldNames ht) (by simp [hs])
    obtain ⟨d', hd'⟩ := Option.isSome_iff_exists.mp (Entries.lookup_isSome.mpr hset)
    -- the field is set to a reading of the same value by the same type
    obtain ⟨t', v', ht', hs', hr'⟩ := fields_reads hv hd'
    obtain rfl : t' = t := Option.some.inj (ht'.symm.trans ht)
    obtain rfl : v' = v := Option.some.inj (hs'.symm.trans hs)
    rw [Instance.get?, hd', FieldType.reads_inj hr' hr]

/-- What the path supplies: its captures, as strings. -/
def captured (captures : Captures) (field : String) : Option Value :=
  (captures.lookup field).map .string

/-- The members of a body that has members; no body is an empty one. -/
def members? : Value → Option Members
  | .null => some []
  | .object members => some members
  | _ => none

/-- What the body supplies. -/
def member (body : Value) (field : String) : Option Value :=
  (members? body).bind (Members.get? · field)

theorem path_eq (captures : Captures) (reject : Bool) (s : RecordSchema) :
    path captures reject s = record s (captured captures) reject missingParameter := rfl

theorem body_eq {v : Value} (hv : members? v ≠ none) (reject : Bool) (s : RecordSchema) :
    body v reject s = record s (member v) reject missingMessage := by
  cases v with
  | null => rfl
  | object members => rfl
  | _ => exact absurd rfl hv

theorem body_of_no_members {v : Value} (hv : members? v = none) (reject : Bool)
    (s : RecordSchema) :
    body v reject s = .error (.request ⟨rootPath, s!"expected object body for '{s.name}'"⟩) := by
  cases v with
  | null => cases hv
  | object members => cases hv
  | _ => rfl

theorem body_eq_ok {v : Value} {r : Instance} :
    body v reject s = .ok r ↔
      members? v ≠ none ∧ record s (member v) reject missingMessage = .ok r := by
  by_cases hv : members? v = none
  · simp [body_of_no_members hv, hv]
  · simp [body_eq hv, hv]

theorem path_error_request {captures : Captures} {err : ContractError}
    (h : path captures reject s = .error err) : ∃ p, err = .request p := by
  obtain ⟨e, p, -, he, -⟩ := first_of_record_error h
  exact ⟨p, he⟩

theorem body_error_request {v : Value} {err : ContractError}
    (h : body v reject s = .error err) : ∃ p, err = .request p := by
  by_cases hv : members? v = none
  · rw [body_of_no_members hv, Except.error.injEq] at h
    exact ⟨_, h.symm⟩
  · rw [body_eq hv] at h
    obtain ⟨e, p, -, he, -⟩ := first_of_record_error h
    exact ⟨p, he⟩

end Extraction

end Covenant
