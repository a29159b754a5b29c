import Covenant.Proofs.Fixpoint
import Covenant.Proofs.Strictness

namespace Covenant

open Json Validation

namespace Extraction

variable {source : String → Option Value} {reject : Bool} {absence : String}
  {fs : List (String × FieldType)} {values : List (String × Datum)} {s : RecordSchema}
  {r : Instance}

/-- The reading of the fields in which each datum is set on the instance made so far. -/
def setEach (source : String → Option Value) (reject : Bool) (absence : String) :
    Instance → List (String × FieldType) → Except ContractError Instance
  | r, [] => .ok r
  | r, (field, type) :: rest =>
    match source field with
    | some v =>
      match validateAt (fieldPath rootPath field) type v with
      | .ok d => do
        let next ← r.set field d
        setEach source reject absence next rest
      | .error p => .error (.request p)
    | none =>
      if reject then .error (.request ⟨fieldPath rootPath field, absence⟩)
      else setEach source reject absence r rest

theorem keys_fields_sublist (h : fields source reject absence fs = .ok values) :
    (values.map (·.1)).Sublist (fs.map (·.1)) := by
  induction fs generalizing values with
  | nil =>
    cases h
    exact .slnil
  | cons e rest ih =>
    rcases fields_cons_ok.mp h with ⟨v, d, more, -, -, hmore, rfl⟩ | ⟨-, -, hrest⟩
    · exact (ih hmore).cons_cons e.1
    · exact (ih hrest).cons e.1

theorem record_schema (h : record s source reject absence = .ok r) : r.schema = s :=
  (record_partial h).1

theorem record_inOrder {s : DeclaredSchema} (h : record s source reject absence = .ok r) :
    r.InOrder := by
  obtain ⟨values, hv, rfl⟩ := Outcome.map_eq_ok.mp h
  exact Instance.inOrder_of_sublist s rfl (keys_fields_sublist hv)

theorem setEach_eq (hr : r.InOrder) (hdeclared : ∀ f ∈ fs.map (·.1), f ∈ r.schema.fieldNames)
    (hn : (fs.map (·.1)).Nodup) :
    setEach source reject absence r fs = (fields source reject absence fs).map fun values =>
      .collect r.schema fun f => (values.lookup f).or (r.get? f) := by
  induction fs generalizing r with
  | nil => exact congrArg Except.ok hr
  | cons e rest ih =>
    obtain ⟨g, t⟩ := e
    obtain ⟨hg, hrest⟩ := List.forall_mem_cons.mp hdeclared
    obtain ⟨hnew, hn⟩ := List.nodup_cons.mp hn
    cases hs : source g with
    | none =>
      cases reject with
      | true => simp [setEach, fields, hs, Except.map]
      | false => simpa [setEach, fields, hs] using ih hr hrest hn
    | some v =>
      cases hv : validateAt (fieldPath rootPath g) t v with
      | error p => simp [setEach, fields, hs, hv, Except.map]
      | ok d =>
        simp only [setEach, fields, hs, hv, Instance.set_declared hg d, Outcome.ok_bind]
        rw [ih (Instance.collect_inOrder ..) hrest hn]
        cases hmore : fields source reject absence rest with
        | error e => rfl
        | ok more =>
          -- the field comes once, so nothing that is read later sets it again
          have hfresh : more.lookup g = none :=
            Entries.lookup_eq_none fun h => hnew ((keys_fields_sublist hmore).subset h)
          refine congrArg Except.ok (Instance.collect_congr ?_)
          intro f hf
          have hf : f ∈ r.schema.fieldNames := hf
          rw [Instance.get_collect_of_mem _ hf, Entries.lookup_cons_ite]
          by_cases hfg : f = g
          · simp [hfg, hfresh]
          · simp [hfg]

theorem setEach_empty (s : DeclaredSchema) (source : String → Option Value) (reject : Bool)
    (absence : String) :
    setEach source reject absence (.empty s) s.fields = record s source reject absence := by
  have hempty : (Instance.empty s).InOrder :=
    Instance.inOrder_of_sublist s rfl (List.nil_sublist _)
  have heach : setEach source reject absence (.empty s) s.fields = _ :=
    setEach_eq hempty (fun _ h => h) s.once
  rw [heach, record]
  cases hv : fields source reject absence s.fields with
  | error e => rfl
  | ok values =>
    have horder : Instance.InOrder ⟨s, values⟩ :=
      Instance.inOrder_of_sublist s rfl (keys_fields_sublist hv)
    refine congrArg Except.ok (Eq.trans (Instance.collect_congr ?_) horder.symm)
    intro f _
    exact Option.or_none

/-- The instance sets the fields that the source has values for, each to what its value is validated
to. -/
structure HoldsPresent (s : RecordSchema) (source : String → Option Value) (r : Instance) :
    Prop where
  schema : r.schema = s
  inOrder : r.InOrder
  isSet : ∀ f, r.isSet f = true ↔ f ∈ s.fieldNames ∧ (source f).isSome = true
  values : ∀ e ∈ s.fields, ∀ v, source e.1 = some v →
    ∃ d, validateAt (fieldPath rootPath e.1) e.2 v = .ok d ∧ r.get? e.1 = some d

theorem holdsPresent_of_record {s : DeclaredSchema}
    (h : record s source reject absence = .ok r) : HoldsPresent s source r := by
  refine ⟨record_schema h, record_inOrder h, ?_, ?_⟩
  · intro f
    refine ⟨?_, fun hf => record_isSet h hf.1 hf.2⟩
    intro hf
    obtain ⟨d, hd⟩ := Option.isSome_iff_exists.mp hf
    obtain ⟨_, t, v, ⟨rfl⟩, ht, hv, -⟩ := (record_get h).mp hd
    exact ⟨RecordSchema.mem_fieldNames ht, by rw [hv]; rfl⟩
  · rintro ⟨f, t⟩ he v hv
    have hnone := none_refused_of_record h _ he
    rw [refused_of_some hv, not_not, FieldType.accepts_iff (fieldPath rootPath f)] at hnone
    obtain ⟨d, hd⟩ := hnone
    have ht : s.fieldType? f = some t := s.fieldType_eq_some.mpr he
    exact ⟨d, hd, (record_get h).mpr ⟨s, t, v, rfl, ht, hv, (validateAt_ok _ t v d).mp hd⟩⟩

theorem HoldsPresent.unique {q : Instance} (hr : HoldsPresent s source r)
    (hq : HoldsPresent s source q) : r = q := by
  refine hr.inOrder.ext hq.inOrder (hr.schema.trans hq.schema.symm) ?_
  intro f hf
  rw [hr.schema] at hf
  obtain ⟨e, he, rfl⟩ := List.mem_map.mp hf
  cases hv : source e.1 with
  | none =>
    have hunset : ∀ {p : Instance}, HoldsPresent s source p → p.get? e.1 = none := by
      intro p hp
      rw [← Option.not_isSome_iff_eq_none]
      intro hset
      obtain ⟨-, hsome⟩ := (hp.isSet e.1).mp hset
      simp [hv] at hsome
    rw [hunset hr, hunset hq]
  | some v =>
    obtain ⟨d, hd, hrd⟩ := hr.values e he v hv
    obtain ⟨d', hd', hqd⟩ := hq.values e he v hv
    rw [hrd, hqd, Except.ok.inj (hd.symm.trans hd')]

theorem record_tolerant_ok {s : DeclaredSchema} :
    record s source false absence = .ok r ↔ HoldsPresent s source r := by
  refine ⟨holdsPresent_of_record, ?_⟩
  intro h
  have hnone : ∀ e ∈ s.fields, ¬Refused source false e := by
    intro e he
    cases hv : source e.1 with
    | none => simp [refused_of_none hv]
    | some v =>
      obtain ⟨d, hd, -⟩ := h.values e he v hv
      rw [refused_of_some hv, not_not]
      exact (FieldType.accepts_iff _).mpr ⟨d, hd⟩
  obtain ⟨q, hq⟩ := record_of_none_refused hnone absence
  rw [hq, h.unique (holdsPresent_of_record hq)]

theorem record_tolerant_error {err : ContractError} :
    record s source false absence = .error err ↔
      ∃ e v p, FirstOf (Refused source false) s.fields e ∧ source e.1 = some v ∧
        validateAt (fieldPath rootPath e.1) e.2 v = .error p ∧ err = .request p := by
  constructor
  · intro h
    obtain ⟨e, p, hfirst, he, hreported⟩ := first_of_record_error h
    cases hv : source e.1 with
    | none => exact absurd ((refused_of_none hv).mp hfirst.holds) Bool.false_ne_true
    | some v =>
      simp only [Reported, hv] at hreported
      exact ⟨e, v, p, hfirst, hv, hreported, he⟩
  · rintro ⟨e, v, p, hfirst, hv, hp, rfl⟩
    obtain ⟨q, hq, hreported⟩ := record_of_first hfirst absence
    simp only [Reported, hv, hp, Except.error.injEq] at hreported
    rw [hq, hreported]

theorem fields_eq_validateFieldsAt (fs : List (String × FieldType)) (members : Members) :
    fields members.get? true missingMessage fs =
      (validateFieldsAt rootPath fs members).mapError .request := by
  induction fs with
  | nil => rfl
  | cons e rest ih =>
    obtain ⟨f, t⟩ := e
    cases hf : members.get? f with
    | none => simp [fields, validateFieldsAt, hf, Except.mapError]
    | some v =>
      cases hv : validateAt (fieldPath rootPath f) t v with
      | error p => simp [fields, validateFieldsAt, hf, hv, Outcome.error_bind, Except.mapError]
      | ok d =>
        simp only [fields, validateFieldsAt, hf, hv, ih, Outcome.ok_bind]
        cases validateFieldsAt rootPath rest members <;> rfl

theorem body_eq_validateRecord (s : RecordSchema) (members : Members) :
    body (.object members) true s = (validateRecord s (.object members)).mapError .request := by
  obtain ⟨name, description, fs⟩ := s
  show (fields members.get? true missingMessage fs).map _ = _
  rw [fields_eq_validateFieldsAt, validateRecord, validateRecordAt]
  cases validateFieldsAt rootPath fs members <;> rfl

/-- The object that holds the captures as strings; of captures with one name the first counts, as
where they are looked up. -/
def held (captures : Captures) : Members :=
  .ofList (captures.reverse.map fun e => (e.1, .string e.2))

theorem get_held (captures : Captures) : (held captures).get? = captured captures := by
  funext f
  rw [held, Members.get_ofList_reverse, ← List.map_reverse, List.reverse_reverse,
    Entries.lookup_map]
  rfl

theorem fields_tolerant (source : String → Option Value) (a b : String)
    (fs : List (String × FieldType)) :
    fields source false a fs = fields source false b fs := by
  induction fs with
  | nil => rfl
  | cons e rest ih => simp only [fields, ih, Bool.false_eq_true, if_false]

/-- The words for an absent field matter only where a strict reading stops at one. -/
theorem record_absence (s : RecordSchema) (source : String → Option Value) (reject : Bool)
    (a b : String) :
    record s source reject a = record s source reject b ∨
      reject = true ∧ ∃ f, AbsentFirst (some s) source f := by
  have htolerant : record s source false a = record s source false b := by
    rw [record, fields_tolerant source a b, record]
  cases reject with
  | false => exact .inl htolerant
  | true =>
    rcases record_strict s source a with ha | hfirst
    · rcases record_strict s source b with hb | hfirst
      · exact .inl (by rw [ha, htolerant, hb])
      · exact .inr ⟨rfl, hfirst⟩
    · exact .inr ⟨rfl, hfirst⟩

theorem path_held (captures : Captures) (reject : Bool) (s : RecordSchema) :
    path captures reject s = body (.object (held captures)) reject s ∨
      reject = true ∧ ∃ f, AbsentFirst (some s) (captured captures) f ∧
        path captures reject s = .error (.request ⟨fieldPath rootPath f, missingParameter⟩) ∧
        body (.object (held captures)) reject s =
          .error (.request ⟨fieldPath rootPath f, missingMessage⟩) := by
  have hbody : body (.object (held captures)) reject s =
      record s (captured captures) reject missingMessage := by
    rw [body, get_held]
  rw [path_eq, hbody]
  refine (record_absence s (captured captures) reject missingParameter missingMessage).imp_right ?_
  rintro ⟨rfl, f, hf⟩
  exact ⟨rfl, f, hf, hf.record_eq missingParameter, hf.record_eq missingMessage⟩

/-- A strict reading of an object is its validation as a record, and no body is an empty object. A tolerant reading sets
the fields that are present and fails over the first of them that is not accepted. Captures are read
like the object that holds them, except for the words in which a field is said to be absent. Setting
the fields one by one makes no difference, whatever the source, and no reading ends in a fault of
the definition. -/
theorem readers_agree (s : DeclaredSchema) :
    (∀ members : Members,
      body (.object members) true s = (validateRecord s (.object members)).mapError .request) ∧
    (∀ reject, body .null reject s = body (.object []) reject s) ∧
    (∀ (members : Members) r,
      body (.object members) false s = .ok r ↔ HoldsPresent s members.get? r) ∧
    (∀ (members : Members) err, body (.object members) false s = .error err ↔
      ∃ e v p, FirstOf (Refused members.get? false) s.fields e ∧ members.get? e.1 = some v ∧
        validateAt (fieldPath rootPath e.1) e.2 v = .error p ∧ err = .request p) ∧
    (∀ captures reject, path captures reject s = body (.object (held captures)) reject s ∨
      reject = true ∧ ∃ f, AbsentFirst (some s) (captured captures) f ∧
        path captures reject s = .error (.request ⟨fieldPath rootPath f, missingParameter⟩) ∧
        body (.object (held captures)) reject s =
          .error (.request ⟨fieldPath rootPath f, missingMessage⟩)) ∧
    (∀ source reject absence,
      setEach source reject absence (.empty s) s.fields = record s source reject absence) ∧
    ∀ reject message, (∀ captures, path captures reject s ≠ .error (.definition message)) ∧
      ∀ v, body v reject s ≠ .error (.definition message) := by
  refine ⟨body_eq_validateRecord s, fun _ => rfl, fun _ _ => record_tolerant_ok,
    fun _ _ => record_tolerant_error, fun captures reject => path_held captures reject s,
    setEach_empty s, ?_⟩
  intro reject message
  constructor
  · intro captures h
    obtain ⟨p, hp⟩ := path_error_request h
    cases hp
  · intro v h
    obtain ⟨p, hp⟩ := body_error_request h
    cases hp

/-- An update of a user whose number is captured and whose other fields are absent. -/
theorem captured_user_read :
    let user := Sample.changedUser
    let captures : Captures := [("id", " 7 ")]
    user.fieldNames.Nodup ∧
    body (.object (held captures)) true user =
      .error (.request ⟨"$.name", missingMessage⟩) ∧
    validateRecord user (.object (held captures)) = .error ⟨"$.name", missingMessage⟩ ∧
    path captures true user = .error (.request ⟨"$.name", missingParameter⟩) ∧
    HoldsPresent user (held captures).get? ⟨user, [("id", .integer 7)]⟩ := by
  intro user captures
  have hs : user.fieldNames.Nodup := by decide
  obtain ⟨hstrict, -, htolerant, -, -⟩ := readers_agree ⟨user, hs⟩
  have hrecord : validateRecord user (.object (held captures)) =
      .error ⟨"$.name", missingMessage⟩ := rfl
  refine ⟨hs, ?_, hrecord, rfl, (htolerant (held captures) _).mp rfl⟩
  rw [hstrict, hrecord]
  rfl

end Extraction

end Covenant
