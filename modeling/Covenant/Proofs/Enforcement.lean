import Covenant.Proofs.Definitions
import Covenant.Proofs.Dispatch
import Covenant.Proofs.Undeclared

namespace Covenant

theorem RecordSchema.Reads.object {s : RecordSchema} {v : Json.Value} {r : Instance}
    (h : s.Reads v r) : ∃ members, v = .object members := by
  obtain ⟨_, _, fields⟩ := s
  obtain ⟨members, hv, -⟩ := h
  exact ⟨members, hv⟩

namespace Exchange

variable {registry : Registry} {status : Status} {response : ResponseContract}

theorem responseContract_of_mem (hr : registry.Sound) {o : Operation}
    (ho : o ∈ registry.operations) (hk : o.contract.Keyed)
    (h : (status, response) ∈ o.contract.responses) :
    responseContract registry o.id status = .ok response := by
  rw [responseContract, Registry.contractOf_of_mem hr ho, Outcome.ok_bind,
    (Entries.lookup_eq_some_iff hk.statuses).mpr h]

theorem reads_of_validateResponse {policy : Policy} (hv : policy.validateResponses = true)
    (he : policy.enforceResponses = true) {context : Context} {id : String}
    (hid : context.operation = some id) (hr : responseContract registry id status = .ok response)
    {body : Json.Value}
    (h : (validateResponse registry policy context status body).value = .ok ()) :
    ∃ r, response.schema.Reads body r := by
  unfold validateResponse at h
  rw [if_neg (by simp [hv])] at h
  simp only [operationOrError_eq_ok.mpr hid, hr] at h
  cases hread : Validation.validateRecord response.schema body with
  | ok r => exact ⟨r, (validateRecordAt_ok _ _ _ _).mp hread⟩
  | error p => simp [hread, verdict, he] at h

theorem rendered_fields (hn : response.schema.fieldNames.Nodup) {context : Context} {id : String}
    (hid : context.operation = some id) (hr : responseContract registry id status = .ok response)
    {content : Instance} {code : Status} {body : Json.Value}
    (h : renderResponse registry context status content = .ok (code, body)) :
    ∃ members, body = .object members ∧
      (members.map (·.1)).Perm response.schema.fieldNames ∧
      ∀ f t, (f, t) ∈ response.schema.fields →
        ∃ d, Json.Members.get? members f = some d.toJson ∧ t.Fits d := by
  obtain ⟨id', response', r, hid', hr', hread, heq⟩ := renderResponse_eq_ok.mp h
  obtain rfl : id' = id := Option.some.inj (hid'.symm.trans hid)
  obtain rfl : response' = response := Except.ok.inj (hr'.symm.trans hr)
  obtain ⟨-, rfl⟩ := Prod.mk.inj heq
  have hfits := response'.schema.fits_of_reads _ r hread
  have honce : r.SetsOnce := DeclaredSchema.setsOnce_of_fits ⟨response'.schema, hn⟩ hfits
  refine ⟨r.members, r.toJson_eq, ?_, ?_⟩
  · rw [← hfits.fieldNames]
    exact Instance.keys_members honce
  · intro f t hf
    obtain ⟨d, hd, hfit⟩ := hfits.get ((Entries.lookup_eq_some_iff hn).mpr hf)
    exact ⟨d, Instance.get_members honce hd, hfit⟩

end Exchange

namespace Service

open Docs

/-- Whatever an operation renders with the status has the properties of the definition and no others,
each with a datum of the type that the schema gives the field and the property shows by its name. -/
def Renders (s : Service) (id : String) (status : Status) (schema : RecordSchema)
    (definition : Definition) : Prop :=
  ∀ context content code body, context.operation = some id →
    s.render context status content = .ok (code, body) →
    ∃ members, body = .object members ∧
      (members.map (·.1)).Perm (definition.properties.map (·.1)) ∧
      ∀ f shown, (f, shown) ∈ definition.properties →
        ∃ t d, (f, t) ∈ schema.fields ∧ shown = typeName t ∧ t.Fits d ∧
          Json.Members.get? members f = some d.toJson

/-- Whatever an operation may answer with the status is an object with the properties of the
definition. -/
def Demands (s : Service) (id : String) (status : Status) (definition : Definition) : Prop :=
  ∀ context body, context.operation = some id →
    (s.afterHandler context status body).value = .ok () →
    ∃ members, body = .object members ∧
      ∀ f ∈ definition.properties.map (·.1), (Json.Members.get? members f).isSome = true

/-- Requests of an operation come to the same whatever their body. -/
def IgnoresBody (s : Service) (id : String) : Prop :=
  ∀ context captures body other, context.operation = some id →
    s.beforeDispatch context captures body = s.beforeDispatch context captures other

variable {s : Service} {o : Operation} {status : Status} {response : ResponseContract}

theorem renders_ofSchema (hn : response.schema.fieldNames.Nodup)
    (hr : Exchange.responseContract s.registry o.id status = .ok response) :
    s.Renders o.id status response.schema (Definition.ofSchema response.schema) := by
  intro context content code body hid h
  obtain ⟨members, hbody, hkeys, hfields⟩ := Exchange.rendered_fields hn hid hr h
  refine ⟨members, hbody, (keys_ofSchema _).symm ▸ hkeys, ?_⟩
  intro f shown hf
  obtain ⟨⟨_, t⟩, ht, heq⟩ := List.mem_map.mp hf
  obtain ⟨rfl, rfl⟩ := Prod.mk.inj heq
  obtain ⟨d, hd, hfit⟩ := hfields _ t ht
  exact ⟨t, d, ht, rfl, hfit, hd⟩

theorem demands_ofSchema (hv : s.policy.validateResponses = true)
    (he : s.policy.enforceResponses = true)
    (hr : Exchange.responseContract s.registry o.id status = .ok response) :
    s.Demands o.id status (Definition.ofSchema response.schema) := by
  intro context body hid h
  obtain ⟨r, hread⟩ := Exchange.reads_of_validateResponse hv he hid hr h
  obtain ⟨members, rfl⟩ := hread.object
  refine ⟨members, rfl, ?_⟩
  intro f hf
  rw [keys_ofSchema, ← RecordSchema.declares_iff] at hf
  obtain ⟨t, ht⟩ := Option.isSome_iff_exists.mp hf
  obtain ⟨v, d, hget, -⟩ := hread.get rfl ht
  simp [hget]

theorem ignoresBody_of_none (hs : s.registry.Sound) (ho : o ∈ s.registry.operations)
    (hb : o.contract.request.body = none) : s.IgnoresBody o.id := by
  intro context captures body other hid
  apply Exchange.validateRequest_congr
  intro id contract hid' hc schema hschema
  -- the contract is the operation's own, so it declares no body that could be read
  obtain rfl : o.id = id := Option.some.inj (hid.symm.trans hid')
  rw [Registry.contractOf_of_mem hs ho, Except.ok.injEq] at hc
  rw [← hc, hb] at hschema
  cases hschema

/-- In the document of a service whose schemas of one name have the same fields, an entry belongs to
a registered operation and lists its statuses. The definition that a status refers to has just the
properties of what is rendered with it, and all of them are demanded of what is answered with it
where broken contracts are errors. Where the entry lists no body, it does not matter what body a
request has. -/
theorem document_agrees_with_enforcement (policy : Policy) (info : BasicInfo)
    (documentPath : String) (os : List Operation) (basic : BasicInfo) :
    let s := ((Draft.new policy info documentPath).addRoutes os).build.value
    let d := (s.document basic).value
    s.registry.Keyed → Consistent s.registry →
    ∀ template method e, d.Shows template method e →
      ∃ o ∈ s.registry.operations, slot o = (template, method) ∧ e.operation = o.id ∧
        e.responses.map (·.1) = o.contract.responses.map (·.1.code) ∧
        (∀ x ∈ e.responses, ∃ status response definition,
          (status, response) ∈ o.contract.responses ∧ status.code = x.1 ∧
          d.resolve? x.2.reference = some definition ∧
          s.Renders o.id status response.schema definition ∧
          (policy.validateResponses = true → policy.enforceResponses = true →
            s.Demands o.id status definition)) ∧
        ((∀ p ∈ e.parameters, p.location ≠ .body) → s.IgnoresBody o.id) := by
  intro s d hkeyed hc template method e he
  have hsound : s.registry.Sound := Draft.new_addRoutes_sound policy info documentPath os
  have hpolicy : s.policy = policy := Draft.addRoutes_policy _ os
  obtain ⟨o, ho, hslot, rfl⟩ := shows_ofRegistry he
  have hk : o.contract.Keyed := hkeyed o ho
  refine ⟨o, ho, hslot, rfl, ?_, ?_, ?_⟩
  · simp [Endpoint.ofOperation]
  · intro x hx
    obtain ⟨⟨status, response⟩, hmem, rfl⟩ := List.mem_map.mp hx
    have hr := Exchange.responseContract_of_mem hsound ho hk hmem
    have hschema : response.schema ∈ usedSchemas o :=
      List.mem_append_right _ (List.mem_map_of_mem (f := fun e => e.2.schema) hmem)
    refine ⟨status, response, Definition.ofSchema response.schema, hmem, rfl, ?_, ?_, ?_⟩
    · rw [resolve_definitionReference]
      change (Document.ofRegistry basic s.registry).value.definitions.lookup _ = _
      rw [definitions_ofRegistry]
      exact lookup_of_consistent hc (List.mem_flatMap_of_mem ho hschema)
    · exact renders_ofSchema (hk.fields _ hschema) hr
    · intro hv he
      exact demands_ofSchema (hpolicy ▸ hv) (hpolicy ▸ he) hr
  · intro hb
    apply ignoresBody_of_none hsound ho
    cases hbody : o.contract.request.body with
    | none => rfl
    | some schema =>
      have hp : Parameter.forBody schema.name ∈ (Endpoint.ofOperation o).parameters := by
        simp [Endpoint.ofOperation, hbody]
      exact absurd rfl (hb _ hp)

/-- In the user service the definition for an update is what is rendered and demanded, and the list of
users takes any body. -/
theorem user_service_documented :
    let info : BasicInfo := ⟨"localhost", "Users", "1", [], "/"⟩
    let s := ((Draft.new .default info "swagger.json").addRoutes
      Sample.registry.operations).build.value
    let d := (s.document info).value
    s.registry.Keyed ∧ Consistent s.registry ∧
    (∃ e, d.Shows "/users/\x7bid\x7d" "put" e ∧ e.operation = "updateUser" ∧
      e.responses.map (·.1) = [200] ∧
      ∀ x ∈ e.responses, ∃ status response definition, status.code = x.1 ∧
        d.resolve? x.2.reference = some definition ∧
        s.Renders "updateUser" status response definition ∧
        s.Demands "updateUser" status definition) ∧
    s.IgnoresBody "listUsers" := by
  intro info s d
  have hkeyed : s.registry.Keyed := by decide +kernel
  have hc : Consistent s.registry := by decide +kernel
  have hagree := document_agrees_with_enforcement .default info "swagger.json"
    Sample.registry.operations info hkeyed hc
  have hput : (entryAt? d.paths ("/users/\x7bid\x7d", "put")).map
      (fun e => (e.operation, e.responses.map (·.1))) = some ("updateUser", [200]) := by
    decide +kernel
  have hget : (entryAt? d.paths ("/users", "get")).map (fun e => (e.operation, e.parameters)) =
      some ("listUsers", []) := by decide +kernel
  obtain ⟨e, he, heq⟩ := Option.map_eq_some_iff.mp hput
  obtain ⟨e', he', heq'⟩ := Option.map_eq_some_iff.mp hget
  obtain ⟨hop, hcodes⟩ := Prod.mk.inj heq
  obtain ⟨hop', hparameters⟩ := Prod.mk.inj heq'
  refine ⟨hkeyed, hc, ⟨e, shows_of_entryAt he, hop, hcodes, ?_⟩, ?_⟩
  · obtain ⟨o, -, -, hid, -, hall, -⟩ := hagree _ _ e (shows_of_entryAt he)
    intro x hx
    obtain ⟨status, response, definition, -, hcode, hd, hrenders, hdemands⟩ := hall x hx
    rw [← hid, hop] at hrenders hdemands
    exact ⟨status, response.schema, definition, hcode, hd, hrenders, hdemands rfl rfl⟩
  · obtain ⟨o, -, -, hid, -, -, hbody⟩ := hagree _ _ e' (shows_of_entryAt he')
    rw [← hid, hop'] at hbody
    exact hbody (by simp [hparameters])

end Service

end Covenant
