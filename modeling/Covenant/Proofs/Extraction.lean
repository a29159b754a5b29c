import Covenant.Exchange.Extraction
import Covenant.Proofs.Conformance

namespace Covenant

open Json

namespace Validation

/-- What validation has to say of a value that it refuses. -/
inductive Complaint : String → Prop
  | integer {v : Value} {message : String} (h : coerceInteger v = .error message) :
    Complaint message
  | list (v : Value) : Complaint s!"expected list, got {v.kindName}"
  | record (name : String) (v : Value) :
    Complaint s!"expected object for '{name}', got {v.kindName}"
  | missing : Complaint missingMessage

theorem eachItem_error {check : Nat → Value → Except Problem Datum} {i : Nat} {items : List Value}
    {p : Problem} (h : eachItem check i items = .error p) :
    ∃ k x, items[k]? = some x ∧ check (i + k) x = .error p ∧
      ∀ j y, j < k → items[j]? = some y → ∃ d, check (i + j) y = .ok d := by
  induction items generalizing i with
  | nil => simp [eachItem] at h
  | cons x rest ih =>
    rw [eachItem, Outcome.bind_eq_error] at h
    obtain hx | ⟨d, hd, h⟩ := h
    · exact ⟨0, x, rfl, hx, by simp⟩
    · rw [Outcome.bind_eq_error] at h
      obtain hrest | ⟨ds, -, h⟩ := h
      · obtain ⟨k, y, hy, hp, hbefore⟩ := ih hrest
        refine ⟨k + 1, y, hy, by rwa [← Nat.add_assoc, Nat.add_right_comm], ?_⟩
        intro j z hj hz
        cases j with
        | zero =>
          cases hz
          exact ⟨d, hd⟩
        | succ j =>
          obtain ⟨e, he⟩ := hbefore j z (Nat.lt_of_succ_lt_succ hj) hz
          exact ⟨e, by rwa [← Nat.add_assoc, Nat.add_right_comm]⟩
      · exact absurd h Outcome.pure_ne_error

mutual

theorem validateAt_complaint (path : String) :
    ∀ (type : FieldType) (v : Value) (p : Problem),
      validateAt path type v = .error p → Complaint p.message
  | .integer, v, p, h => by
    cases hv : coerceInteger v with
    | ok n => simp [validateAt, hv] at h
    | error message =>
      simp only [validateAt, hv, Except.error.injEq] at h
      subst h
      exact .integer hv
  | .text, v, p, h => by simp [validateAt] at h
  | .list item, v, p, h => by
    cases v with
    | array items =>
      rw [validateAt, Outcome.map_eq_error] at h
      obtain ⟨i, x, -, hx, -⟩ := eachItem_error h
      exact validateAt_complaint (itemPath path (0 + i)) item x p hx
    | _ =>
      cases h
      exact .list _
  | .record s, v, p, h => by
    rw [validateAt, Outcome.map_eq_error] at h
    exact validateRecordAt_complaint path s v p h

theorem validateRecordAt_complaint (path : String) :
    ∀ (s : RecordSchema) (v : Value) (p : Problem),
      validateRecordAt path s v = .error p → Complaint p.message
  | ⟨name, description, fields⟩, v, p, h => by
    cases v with
    | object members =>
      rw [validateRecordAt, Outcome.map_eq_error] at h
      exact validateFieldsAt_complaint path fields members p h
    | _ =>
      cases h
      exact .record name _

theorem validateFieldsAt_complaint (path : String) :
    ∀ (fields : List (String × FieldType)) (members : Members) (p : Problem),
      validateFieldsAt path fields members = .error p → Complaint p.message
  | [], members, p, h => by simp [validateFieldsAt] at h
  | (f, t) :: rest, members, p, h => by
    cases hf : members.get? f with
    | none =>
      simp only [validateFieldsAt, hf, Except.error.injEq] at h
      subst h
      exact .missing
    | some v =>
      simp only [validateFieldsAt, hf, Outcome.bind_eq_error] at h
      rcases h with h | ⟨d, -, h | ⟨ds, -, h⟩⟩
      · exact validateAt_complaint (fieldPath path f) t v p h
      · exact validateFieldsAt_complaint path rest members p h
      · exact absurd h Outcome.pure_ne_error

end

theorem coerceInteger_message {v : Value} {message : String}
    (h : coerceInteger v = .error message) : message.toList.head? ≠ some 'r' := by
  unfold coerceInteger at h
  split at h
  · split at h <;> cases h
    simp [toString]
  · split at h <;> cases h
    simp [toString]
  · cases h
  · split at h <;> cases h
    simp [toString]
  · cases h
    simp [toString]

theorem Complaint.ne_missingParameter {message : String} (h : Complaint message) :
    message ≠ Extraction.missingParameter := by
  intro he
  have hl : message.toList = Extraction.missingParameter.toList := by rw [he]
  cases h with
  | integer hv =>
    apply coerceInteger_message hv
    rw [hl]
    rfl
  | list v => simp [Extraction.missingParameter, toString] at hl
  | record name v => simp [Extraction.missingParameter, toString] at hl
  | missing => simp [Extraction.missingParameter, missingMessage] at hl

end Validation

namespace Extraction

open Validation

variable {source : String → Option Value} {reject : Bool} {absence : String}
  {fs : List (String × FieldType)} {values : List (String × Datum)}

theorem fields_cons_ok {g : String} {t : FieldType} :
    fields source reject absence ((g, t) :: fs) = .ok values ↔
      (∃ v d more, source g = some v ∧ t.Reads v d ∧
        fields source reject absence fs = .ok more ∧ values = (g, d) :: more) ∨
      (source g = none ∧ reject = false ∧ fields source reject absence fs = .ok values) := by
  rw [fields]
  cases hg : source g with
  | none => cases reject <;> simp
  | some v =>
    cases hv : validateAt (fieldPath rootPath g) t v with
    | error p =>
      have hr : ∀ d, ¬t.Reads v d := by
        intro d hd
        rw [(validateAt_ok _ t v d).mpr hd] at hv
        cases hv
      simp [hv, hr]
    | ok d =>
      simp only [hv, Outcome.map_eq_ok]
      constructor
      · rintro ⟨more, hmore, rfl⟩
        exact .inl ⟨v, d, more, rfl, (validateAt_ok _ t v d).mp hv, hmore, rfl⟩
      · rintro (⟨_, d', more, ⟨rfl⟩, hd, hmore, rfl⟩ | ⟨hnone, -⟩)
        · rw [← validateAt_ok (fieldPath rootPath g), hv] at hd
          cases hd
          exact ⟨more, hmore, rfl⟩
        · cases hnone

theorem fields_cons_error {g : String} {t : FieldType} {e : ContractError}
    (h : fields source reject absence ((g, t) :: fs) = .error e) :
    (∃ v p, source g = some v ∧ validateAt (fieldPath rootPath g) t v = .error p ∧
      e = .request p) ∨
    (source g = none ∧ e = .request ⟨fieldPath rootPath g, absence⟩) ∨
    fields source reject absence fs = .error e := by
  rw [fields] at h
  cases hg : source g with
  | none =>
    simp only [hg] at h
    split at h
    · cases h
      exact .inr (.inl ⟨rfl, rfl⟩)
    · exact .inr (.inr h)
  | some v =>
    simp only [hg] at h
    cases hv : validateAt (fieldPath rootPath g) t v with
    | error p =>
      simp only [hv, Except.error.injEq] at h
      exact .inl ⟨v, p, rfl, hv, h.symm⟩
    | ok d =>
      simp only [hv, Outcome.map_eq_error] at h
      exact .inr (.inr h)

theorem fields_reads (h : fields source reject absence fs = .ok values) {f : String} {d : Datum}
    (hd : values.lookup f = some d) :
    ∃ t v, fs.lookup f = some t ∧ source f = some v ∧ t.Reads v d := by
  induction fs generalizing values with
  | nil =>
    cases h
    simp at hd
  | cons e rest ih =>
    obtain ⟨g, t⟩ := e
    rw [List.lookup_cons]
    rcases fields_cons_ok.mp h with ⟨v, d', more, hg, hr, hmore, rfl⟩ | ⟨hg, -, hrest⟩
    · rw [List.lookup_cons] at hd
      by_cases hf : f = g
      · subst hf
        simp only [BEq.rfl, Option.some.injEq] at hd ⊢
        subst hd
        exact ⟨t, v, rfl, hg, hr⟩
      · simp only [beq_eq_false_iff_ne.mpr hf] at hd ⊢
        exact ih hmore hd
    · obtain ⟨t', v, ht, hv, hr⟩ := ih hrest hd
      -- what was passed over has no value, so it is not the field that was found
      have hf : f ≠ g := by
        rintro rfl
        rw [hg] at hv
        cases hv
      refine ⟨t', v, ?_, hv, hr⟩
      rw [beq_eq_false_iff_ne.mpr hf]
      exact ht

theorem fields_supplied (h : fields source reject absence fs = .ok values) {f : String}
    (hf : f ∈ fs.map (·.1)) (hs : (source f).isSome = true) : f ∈ values.map (·.1) := by
  induction fs generalizing values with
  | nil => simp at hf
  | cons e rest ih =>
    obtain ⟨g, t⟩ := e
    rw [List.map_cons, List.mem_cons] at hf
    rcases fields_cons_ok.mp h with ⟨v, d, more, -, -, hmore, rfl⟩ | ⟨hg, -, hrest⟩
    · rw [List.map_cons, List.mem_cons]
      exact hf.imp_right (ih hmore)
    · rcases hf with rfl | hf
      · simp [hg] at hs
      · exact ih hrest hf

theorem fields_error {e : ContractError} (h : fields source reject absence fs = .error e) :
    (∃ p, e = .request p ∧ Complaint p.message) ∨
    ∃ f ∈ fs.map (·.1), source f = none ∧ e = .request ⟨fieldPath rootPath f, absence⟩ := by
  induction fs with
  | nil => simp [fields] at h
  | cons entry rest ih =>
    obtain ⟨g, t⟩ := entry
    rcases fields_cons_error h with ⟨v, p, -, hv, he⟩ | ⟨hg, he⟩ | hrest
    · exact .inl ⟨p, he, validateAt_complaint _ t v p hv⟩
    · exact .inr ⟨g, by simp, hg, he⟩
    · refine (ih hrest).imp_right ?_
      rintro ⟨f, hf, hs, he⟩
      exact ⟨f, List.mem_cons_of_mem _ hf, hs, he⟩

/-- An instance that sets fields of a schema and no others, each to a datum that fits. -/
def Partial (s : RecordSchema) (r : Instance) : Prop :=
  r.schema = s ∧ ∀ f d, r.get? f = some d → ∃ t, s.fieldType? f = some t ∧ t.Fits d

theorem record_partial {s : RecordSchema} {r : Instance}
    (h : record s source reject absence = .ok r) : Partial s r := by
  rw [record, Outcome.map_eq_ok] at h
  obtain ⟨values, hv, rfl⟩ := h
  refine ⟨rfl, ?_⟩
  intro f d hd
  obtain ⟨t, v, ht, -, hr⟩ := fields_reads hv hd
  exact ⟨t, ht, t.fits_of_reads v d hr⟩

theorem path_partial {captures : Captures} {s : RecordSchema} {r : Instance}
    (h : path captures reject s = .ok r) : Partial s r := record_partial h

theorem body_partial {v : Value} {s : RecordSchema} {r : Instance}
    (h : body v reject s = .ok r) : Partial s r := by
  unfold body at h
  split at h
  · exact record_partial h
  · exact record_partial h
  · cases h

theorem record_isSet {s : RecordSchema} {r : Instance}
    (h : record s source reject absence = .ok r) {f : String} (hf : f ∈ s.fieldNames)
    (hs : (source f).isSome = true) : r.isSet f = true := by
  rw [record, Outcome.map_eq_ok] at h
  obtain ⟨values, hv, rfl⟩ := h
  rw [Instance.isSet, Instance.get?, Entries.lookup_isSome]
  exact fields_supplied hv hf hs

theorem path_isSet {captures : Captures} {s : RecordSchema} {r : Instance}
    (h : path captures reject s = .ok r) {f : String} (hf : f ∈ s.fieldNames)
    (hc : (captures.lookup f).isSome = true) : r.isSet f = true := by
  apply record_isSet h hf
  rw [Option.isSome_map]
  exact hc

theorem record_error {s : RecordSchema} {e : ContractError}
    (h : record s source reject absence = .error e) :
    (∃ p, e = .request p ∧ Complaint p.message) ∨
    ∃ f ∈ s.fieldNames, source f = none ∧ e = .request ⟨fieldPath rootPath f, absence⟩ := by
  rw [record, Outcome.map_eq_error] at h
  exact fields_error h

theorem path_error {captures : Captures} {s : RecordSchema} {e : ContractError}
    (h : path captures reject s = .error e)
    (hc : ∀ f ∈ s.fieldNames, (captures.lookup f).isSome = true) :
    ∃ p, e = .request p ∧ p.message ≠ missingParameter := by
  rcases record_error h with ⟨p, he, hp⟩ | ⟨f, hf, hs, -⟩
  · exact ⟨p, he, hp.ne_missingParameter⟩
  · have hcf := hc f hf
    rw [Option.map_eq_none_iff] at hs
    simp [hs] at hcf

/-- Of a body an absent member is reported in other words than an absent parameter. -/
theorem body_error {v : Value} {s : RecordSchema} {e : ContractError}
    (h : body v reject s = .error e) : ∃ p, e = .request p ∧ p.message ≠ missingParameter := by
  have hne : ∀ source, record s source reject missingMessage = .error e →
      ∃ p, e = .request p ∧ p.message ≠ missingParameter := by
    intro source h
    rcases record_error h with ⟨p, he, hp⟩ | ⟨f, -, -, he⟩
    · exact ⟨p, he, hp.ne_missingParameter⟩
    · exact ⟨_, he, Complaint.missing.ne_missingParameter⟩
  unfold body at h
  split at h
  · exact hne _ h
  · exact hne _ h
  · cases h
    refine ⟨_, rfl, ?_⟩
    intro hm
    have hl := congrArg String.toList hm
    simp [missingParameter, toString] at hl

end Extraction

end Covenant
