import Covenant.Exchange
import Covenant.Proofs.Conformance
import Covenant.Proofs.Declarations
import Covenant.Sample.Users

namespace Covenant

open Json Validation

theorem itemsToJson_eq_map (ds : List Datum) : itemsToJson ds = ds.map Datum.toJson := by
  induction ds with
  | nil => rfl
  | cons d rest ih => rw [itemsToJson, ih, List.map_cons]

theorem valuesToJson_eq_map (values : List (String × Datum)) :
    valuesToJson values = values.map fun e => (e.1, e.2.toJson) := by
  induction values with
  | nil => rfl
  | cons e rest ih => rw [valuesToJson, ih, List.map_cons]

theorem keys_valuesToJson (values : List (String × Datum)) :
    (valuesToJson values).map (·.1) = values.map (·.1) := by
  rw [valuesToJson_eq_map, List.map_map]
  rfl

namespace Instance

/-- No field is set twice. -/
def SetsOnce (r : Instance) : Prop := (r.values.map (·.1)).Nodup

/-- The members of the JSON object of an instance. -/
def members (r : Instance) : Members := Members.ofList (valuesToJson r.values)

theorem toJson_eq (r : Instance) : r.toJson = .object r.members := by
  cases r
  rfl

theorem get_members {r : Instance} (h : r.SetsOnce) {f : String} {d : Datum}
    (hd : r.get? f = some d) : r.members.get? f = some d.toJson := by
  have hn : ((valuesToJson r.values).map (·.1)).Nodup := by
    rw [keys_valuesToJson]
    exact h
  rw [members, Members.get_ofList hn, valuesToJson_eq_map, Entries.lookup_map]
  exact congrArg (Option.map Datum.toJson) hd

theorem keys_members {r : Instance} (h : r.SetsOnce) :
    (r.members.map (·.1)).Perm (r.values.map (·.1)) := by
  rw [← keys_valuesToJson]
  apply Members.keys_ofList
  rw [keys_valuesToJson]
  exact h

theorem collect_setsOnce (s : DeclaredSchema) (source : String → Option Datum) :
    (collect s source).SetsOnce := by
  refine List.Nodup.sublist ?_ s.once
  unfold collect
  induction s.fieldNames with
  | nil => exact .slnil
  | cons f rest ih =>
    cases hf : source f with
    | none => simpa [hf] using ih.cons f
    | some d => simpa [hf] using ih

end Instance

theorem DeclaredSchema.setsOnce_of_fits (s : DeclaredSchema) {r : Instance} (h : s.Fits r) :
    r.SetsOnce := by
  rw [Instance.SetsOnce, h.fieldNames]
  exact s.once

theorem coerceInteger_int {n : Int} (h : Text.fitsInt64 n = true) :
    coerceInteger (.int n) = .ok n := by
  simp [coerceInteger, Value.int, h]

/-- What fits the type is what its JSON reads as. -/
def FieldType.ReadsBack (type : FieldType) : Prop :=
  ∀ d : Datum, type.Fits d → type.Reads d.toJson d

theorem readsFields_toJson {fields : List (String × FieldType)}
    (types : ∀ e ∈ fields, e.2.ReadsBack)
    {values : List (String × Datum)} (h : FitsFields fields values) {members : Members}
    (hm : ∀ f d, (f, d) ∈ values → members.get? f = some d.toJson) :
    ReadsFields fields members values := by
  induction fields generalizing values with
  | nil =>
    cases values with
    | nil => rfl
    | cons => exact h.elim
  | cons e rest ih =>
    cases values with
    | nil => exact h.elim
    | cons v more =>
      obtain ⟨f, t⟩ := e
      obtain ⟨g, d⟩ := v
      obtain ⟨rfl, hfit, hmore⟩ := h
      obtain ⟨hhere, hrest⟩ := List.forall_mem_cons.mp types
      refine ⟨d.toJson, d, more, hm g d List.mem_cons_self, hhere d hfit, ?_, rfl⟩
      exact ih hrest hmore fun f d hfd => hm f d (List.mem_cons_of_mem _ hfd)

theorem DeclaredSchema.reads_toJson (s : DeclaredSchema) (types : ∀ e ∈ s.fields, e.2.ReadsBack)
    {r : Instance} (h : s.Fits r) : s.Reads r.toJson r := by
  have hn : r.SetsOnce := s.setsOnce_of_fits h
  obtain ⟨⟨name, description, fields⟩, once⟩ := s
  refine ⟨r.members, r.toJson_eq, h.1, readsFields_toJson types h.2 ?_⟩
  intro f d hd
  exact Instance.get_members hn ((Entries.lookup_eq_some_iff hn).mpr hd)

theorem DeclaredType.readsBack (type : DeclaredType) : type.1.ReadsBack := by
  obtain ⟨type, once⟩ := type
  induction once with
  | integer =>
    intro d h
    cases d with
    | integer n => exact ⟨n, coerceInteger_int h, rfl⟩
    | _ => exact h.elim
  | text =>
    intro d h
    cases d with
    | text s => rfl
    | _ => exact h.elim
  | list _ ih =>
    intro d h
    cases d with
    | list ds =>
      refine ⟨itemsToJson ds, ds, rfl, rfl, ?_⟩
      rw [itemsToJson_eq_map, List.forall₂_map_left_iff, List.forall₂_same]
      exact fun x hx => ih x (h x hx)
    | _ => exact h.elim
  | @record s once _ ih =>
    intro d h
    cases d with
    | record r => exact ⟨r, rfl, DeclaredSchema.reads_toJson ⟨s, once⟩ ih h⟩
    | _ => exact h.elim

theorem ReadsFields.lookup {fields : List (String × FieldType)} {members : Members}
    {values : List (String × Datum)} (h : ReadsFields fields members values) {f : String}
    {t : FieldType} (hf : fields.lookup f = some t) :
    ∃ v d, members.get? f = some v ∧ t.Reads v d ∧ values.lookup f = some d := by
  induction fields generalizing values with
  | nil => simp at hf
  | cons e rest ih =>
    obtain ⟨g, u⟩ := e
    obtain ⟨v, d, more, hv, hd, hmore, rfl⟩ := h
    rw [Entries.lookup_cons_ite] at hf ⊢
    split at hf
    · next hg =>
      rw [beq_iff_eq] at hg
      cases hf
      subst hg
      exact ⟨v, d, hv, hd, by simp⟩
    · next hg =>
      obtain ⟨v', d', hv', hd', hl⟩ := ih hmore hf
      exact ⟨v', d', hv', hd', by rw [if_neg hg, hl]⟩

theorem RecordSchema.Reads.get {s : RecordSchema} {v : Value} {r : Instance} (h : s.Reads v r)
    {members : Members} (hv : v = .object members) {f : String} {t : FieldType}
    (hf : s.fieldType? f = some t) :
    ∃ x d, members.get? f = some x ∧ t.Reads x d ∧ r.get? f = some d := by
  obtain ⟨name, description, fields⟩ := s
  obtain ⟨m, hm, -, hr⟩ := h
  obtain rfl : m = members := Value.object.inj (hm.symm.trans hv)
  exact hr.lookup hf

namespace Exchange

theorem validateResponse_eq_render (registry : Registry) {policy : Policy}
    (hv : policy.validateResponses = true) (he : policy.enforceResponses = true)
    (ha : policy.allowUndeclaredStatus = false) (context : Context) (status : Status)
    (content : Instance) :
    (validateResponse registry policy context status content.toJson).value =
      (renderResponse registry context status content).map fun _ => () := by
  unfold validateResponse renderResponse
  rw [if_neg (by simp [hv])]
  cases context.operationOrError with
  | error e => rfl
  | ok id =>
    rw [Outcome.ok_bind]
    dsimp only
    cases responseContract registry id status with
    | error e =>
      rw [Outcome.error_bind]
      cases e with
      | undeclaredStatus operation code =>
        simp only [ha]
        rfl
      | _ => rfl
    | ok response =>
      rw [Outcome.ok_bind]
      dsimp only
      cases validateRecord response.schema content.toJson with
      | ok shown => rfl
      | error p =>
        simp only [verdict, he]
        rfl

theorem operationOrError_eq_ok {context : Context} {id : String} :
    context.operationOrError = .ok id ↔ context.operation = some id := by
  unfold Context.operationOrError
  cases context.operation <;> simp

theorem renderResponse_eq_ok {registry : Registry} {context : Context} {status : Status}
    {content : Instance} {shown : Status × Value} :
    renderResponse registry context status content = .ok shown ↔
      ∃ id response r, context.operation = some id ∧
        responseContract registry id status = .ok response ∧
        response.schema.Reads content.toJson r ∧ shown = (status, r.toJson) := by
  simp only [renderResponse, Outcome.bind_eq_ok, operationOrError_eq_ok]
  constructor
  · rintro ⟨id, hid, response, hr, h⟩
    cases hread : validateRecord response.schema content.toJson with
    | error p => simp [hread] at h
    | ok r =>
      simp only [hread, Except.ok.injEq] at h
      exact ⟨id, response, r, hid, hr, (validateRecordAt_ok _ _ _ _).mp hread, h.symm⟩
  · rintro ⟨id, response, r, hid, hr, hread, rfl⟩
    refine ⟨id, hid, response, hr, ?_⟩
    rw [validateRecord, (validateRecordAt_ok rootPath _ _ _).mpr hread]

theorem validateResponse_eq_ok {registry : Registry} {context : Context} {status : Status}
    {id : String} (hid : context.operation = some id) {response : ResponseContract}
    (hr : responseContract registry id status = .ok response) {body : Value} {r : Instance}
    (hread : response.schema.Reads body r) (policy : Policy) :
    (validateResponse registry policy context status body).value = .ok () := by
  have hv : validateRecord response.schema body = .ok r := (validateRecordAt_ok _ _ _ _).mpr hread
  unfold validateResponse
  split
  · rfl
  · simp only [operationOrError_eq_ok.mpr hid, hr, hv]
    rfl

/-- Checking a response as it will be sent and rendering it come to the same, where broken contracts
and undeclared statuses are errors. What is rendered has the given status and, by a declared schema,
just the fields of that; it passes every check, is rendered as itself, and shows a datum of the right
type as it is. -/
theorem check_agrees_with_rendering (registry : Registry) (context : Context) (status : Status)
    (content : Instance) :
    (∀ policy : Policy, policy.validateResponses = true → policy.enforceResponses = true →
      policy.allowUndeclaredStatus = false →
      (validateResponse registry policy context status content.toJson).value =
        (renderResponse registry context status content).map fun _ => ()) ∧
    ∀ code body, renderResponse registry context status content = .ok (code, body) →
      code = status ∧ ∃ id response members, context.operation = some id ∧
        responseContract registry id status = .ok response ∧ body = .object members ∧
        ((FieldType.record response.schema).DeclaresOnce →
          (members.map (·.1)).Perm response.schema.fieldNames ∧
          (∀ policy, (validateResponse registry policy context status body).value = .ok ()) ∧
          (∃ r, validateRecord response.schema body = .ok r ∧
            renderResponse registry context status r = .ok (status, body)) ∧
          (content.SetsOnce → ∀ f t d, response.schema.fieldType? f = some t →
            content.get? f = some d → t.Fits d → Members.get? members f = some d.toJson)) := by
  refine ⟨fun policy hv he ha => validateResponse_eq_render registry hv he ha _ _ _, ?_⟩
  intro code body hshown
  obtain ⟨id, response, r, hid, hr, hread, heq⟩ := renderResponse_eq_ok.mp hshown
  obtain ⟨rfl, rfl⟩ := Prod.mk.inj heq
  refine ⟨rfl, id, response, r.members, hid, hr, r.toJson_eq, ?_⟩
  intro declared
  obtain ⟨once, types⟩ := FieldType.declaresOnce_record.mp declared
  let schema : DeclaredSchema := ⟨response.schema, once⟩
  have hself : ∀ e ∈ response.schema.fields, e.2.ReadsBack :=
    fun e he => DeclaredType.readsBack ⟨e.2, types e he⟩
  have hfits : response.schema.Fits r := response.schema.fits_of_reads _ r hread
  have hback : response.schema.Reads r.toJson r := schema.reads_toJson hself hfits
  have honce : r.SetsOnce := schema.setsOnce_of_fits hfits
  refine ⟨?_, ?_, ?_, ?_⟩
  · rw [← hfits.fieldNames]
    exact Instance.keys_members honce
  · exact validateResponse_eq_ok hid hr hback
  · refine ⟨r, (validateRecordAt_ok _ _ _ _).mpr hback, ?_⟩
    exact renderResponse_eq_ok.mpr ⟨id, response, r, hid, hr, hback, rfl⟩
  · intro hcontent f t d hf hd hfit
    obtain ⟨x, d', hx, hd', hrf⟩ := hread.get content.toJson_eq hf
    -- what the field was read from is the datum's own JSON, and that reads as the datum alone
    rw [Instance.get_members hcontent hd, Option.some.injEq] at hx
    have ht : t.Reads d.toJson d := hself (f, t) (schema.fieldType_eq_some.mp hf) d hfit
    have hdd : d' = d := FieldType.reads_inj (hx ▸ hd') ht
    exact Instance.get_members honce (hdd ▸ hrf)

/-- The response to an update of the user service, rendered from the request. -/
theorem user_update_rendered :
    let content : Instance := ⟨Sample.changedUser,
      [("id", .integer 1), ("name", .text "ann"), ("email", .text "ann@example.com")]⟩
    let body : Value := .object
      [("email", .string "ann@example.com"), ("id", .int 1), ("name", .string "ann")]
    let context : Context := .bound ⟨0⟩ "updateUser"
    (FieldType.record Sample.user).DeclaresOnce ∧
    renderResponse Sample.registry context .success content = .ok (.success, body) ∧
    ∀ policy, (validateResponse Sample.registry policy context .success body).value = .ok () := by
  intro content body context
  have hshown : renderResponse Sample.registry context .success content = .ok (.success, body) := rfl
  have huser : (FieldType.record Sample.user).DeclaresOnce :=
    .ofDeclarations _ _ (by simp)
  obtain ⟨-, id, response, members, hid, hresponse, -, hrendered⟩ :=
    (check_agrees_with_rendering Sample.registry context .success content).2 _ _ hshown
  cases hid
  cases hresponse
  exact ⟨huser, hshown, (hrendered huser).2.1⟩

end Exchange

end Covenant
