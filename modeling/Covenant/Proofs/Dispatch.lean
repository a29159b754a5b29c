import Covenant.Proofs.Assembly
import Covenant.Proofs.Registration
import Covenant.Sample.Users

namespace Covenant

namespace Registry

theorem best_mem {found : List (Operation × Captures)} {x : Operation × Captures}
    (h : best found = some x) : x ∈ found := by
  induction found with
  | nil => simp [best] at h
  | cons y rest ih =>
    unfold best at h
    split at h
    · cases h
      exact List.mem_cons_self
    · next other hother =>
      split at h
      · cases h
        exact List.mem_cons_self
      · cases h
        exact List.mem_cons_of_mem _ (ih hother)

theorem resolve_eq_some {r : Registry} {method : Method} {path : String} {o : Operation}
    {captures : Captures} (h : r.resolve? method path = some (o, captures)) :
    o ∈ r.operations ∧ o.method = method ∧ o.captures? path = some captures := by
  have hmem := best_mem h
  rw [candidates, List.mem_filterMap] at hmem
  obtain ⟨p, hp, hc⟩ := hmem
  rw [List.mem_filter, decide_eq_true_iff] at hp
  rw [Option.map_eq_some_iff] at hc
  obtain ⟨c, hc, he⟩ := hc
  cases he
  exact ⟨hp.1, hp.2, hc⟩

theorem contractOf_of_mem {r : Registry} (hr : r.Sound) {o : Operation} (ho : o ∈ r.operations) :
    r.contractOf o.id = .ok o.contract := by
  rw [contractOf, get_of_mem hr.ids ho]

end Registry

theorem Operation.captures_cover {r : Registry} (hr : r.Sound) {o : Operation}
    (ho : o ∈ r.operations) {path : String} {captures : Captures}
    (h : o.captures? path = some captures) {part : RecordSchema}
    (hp : o.contract.request.path = some part) {f : String} (hf : f ∈ part.fieldNames) :
    (captures.lookup f).isSome = true := by
  rw [Template.captures_lookup h]
  exact hr.covered o ho part hp f hf

theorem Exchange.validateRequest_value {registry : Registry} {policy : Policy}
    (hv : policy.validateRequests = true) {context : Context} {id : String}
    (hid : context.operation = some id) {contract : Contract}
    (hc : registry.contractOf id = .ok contract) (captures : Captures) (body : Json.Value) :
    (validateRequest registry policy context captures body).value =
      match contract.request.assemble policy.rejectMissingFields captures body with
      | .ok request => ({ context with request := some request }, .ok ())
      | .error e => (context, .error e) := by
  let start : Pipeline :=
    { operation := id, contract := contract.request
      rejectMissingFields := policy.rejectMissingFields }
  have hrun : (start.run captures body).value.2 =
      contract.request.assemble policy.rejectMissingFields captures body :=
    Pipeline.run_value rfl rfl captures body
  have hop : context.operationOrError = .ok id := by
    rw [Context.operationOrError, hid]
  rw [← hrun, validateRequest, if_neg (by simp [hv])]
  simp only [hop, hc, Recorded.value_bind]
  rcases (start.run captures body).value with ⟨q, e | r⟩
  · rfl
  · rfl

namespace Service

theorem route_eq_some {s : Service} {id : RequestId} {method : Method} {path : String}
    {context : Context} {captures : Captures}
    (h : s.route? id method path = some (context, captures)) :
    ∃ o, s.registry.resolve? method path = some (o, captures) ∧ context = .bound id o.id := by
  rw [route?, Option.map_eq_some_iff] at h
  obtain ⟨⟨o, c⟩, hr, he⟩ := h
  cases he
  exact ⟨o, hr, rfl⟩

/-- A request that a service routes has captures for its operation's path, and is either given to
the handler with a request instance of the operation's schema, complete and of the right types, or
refused with status 400 and left as it was: for a value that is at fault, or for a field that only
the body could have supplied. -/
theorem routed_request_validated (policy : Policy) (info : Docs.BasicInfo) (documentPath : String)
    (os : List Operation) (hv : policy.validateRequests = true) {id : RequestId} {method : Method}
    {path : String} {context : Context} {captures : Captures}
    (hroute : ((Draft.new policy info documentPath).addRoutes os).build.value.route? id method path
      = some (context, captures)) (body : Json.Value) :
    let s := ((Draft.new policy info documentPath).addRoutes os).build.value
    ∃ o, s.registry.resolve? method path = some (o, captures) ∧ context = .bound id o.id ∧
      (∀ part, o.contract.request.path = some part →
        ∀ f ∈ part.fieldNames, (captures.lookup f).isSome = true) ∧
      let call := (s.beforeDispatch context captures body).value
      (∃ request, call = ({ context with request := some request }, .ok ()) ∧
        o.contract.request.schema.Fits request) ∨
      ∃ e, call = (context, .error e) ∧ e.status = 400 ∧
        ((∃ p, e = .request p ∧ p.message ≠ Extraction.missingParameter) ∨
        ∃ f ∈ o.contract.request.schema.fieldNames,
          e = .missingField o.contract.request.schema.name f ∧
          ∀ part, o.contract.request.path = some part → f ∉ part.fieldNames) := by
  intro s
  have hsound : s.registry.Sound := Draft.new_addRoutes_sound policy info documentPath os
  obtain ⟨o, hresolve, hcontext⟩ := route_eq_some hroute
  obtain ⟨ho, -, hcaptures⟩ := Registry.resolve_eq_some hresolve
  have hcover : ∀ part, o.contract.request.path = some part →
      ∀ f ∈ part.fieldNames, (captures.lookup f).isSome = true :=
    fun _ hp _ hf => o.captures_cover hsound ho hcaptures hp hf
  refine ⟨o, hresolve, hcontext, hcover, ?_⟩
  intro call
  have hpolicy : s.policy = policy := Draft.addRoutes_policy _ os
  have hop : context.operation = some o.id := by rw [hcontext]; rfl
  have hcall : call = _ := Exchange.validateRequest_value (hpolicy ▸ hv) hop
    (Registry.contractOf_of_mem hsound ho) captures body
  cases ha : o.contract.request.assemble s.policy.rejectMissingFields captures body with
  | ok request =>
    rw [ha] at hcall
    exact .inl ⟨request, hcall, RequestContract.assemble_fits (hsound.checked o ho) ha⟩
  | error e =>
    rw [ha] at hcall
    have he := RequestContract.assemble_error hcover ha
    refine .inr ⟨e, hcall, ?_, he⟩
    rcases he with ⟨p, rfl, -⟩ | ⟨f, -, rfl, -⟩
    · rfl
    · rfl

/-- An update of the user service is given to the handler with an instance of its schema. -/
theorem user_update_validated :
    let s := ((Draft.new .default ⟨"localhost", "Users", "1", [], "/"⟩ "swagger.json").addRoutes
      Sample.registry.operations).build.value
    let body := .object [("name", .string "ann"), ("email", .string "ann@example.com")]
    let call := (s.beforeDispatch (.bound ⟨0⟩ "updateUser") [("id", "5")] body).value
    Policy.default.validateRequests = true ∧
    s.route? ⟨0⟩ Sample.put "/users/5" = some (.bound ⟨0⟩ "updateUser", [("id", "5")]) ∧
    call.2 = .ok () ∧
    ∃ o request, s.registry.resolve? Sample.put "/users/5" = some (o, [("id", "5")]) ∧
      call.1.request = some request ∧ o.contract.request.schema.Fits request := by
  intro s body call
  have hroute : s.route? ⟨0⟩ Sample.put "/users/5" =
      some (.bound ⟨0⟩ "updateUser", [("id", "5")]) := rfl
  have hok : call.2 = .ok () := by decide +kernel
  refine ⟨rfl, hroute, hok, ?_⟩
  obtain ⟨o, hresolve, -, -, ⟨request, hcall, hfits⟩ | ⟨e, hcall, -⟩⟩ :=
    routed_request_validated .default ⟨"localhost", "Users", "1", [], "/"⟩ "swagger.json"
      Sample.registry.operations rfl hroute body
  · refine ⟨o, request, hresolve, ?_, hfits⟩
    rw [show call = _ from hcall]
  · rw [show call = _ from hcall] at hok
    cases hok

end Service

end Covenant
