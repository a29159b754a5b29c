import Covenant.Proofs.Conformance
import Covenant.Proofs.Rendering
import Covenant.Service

namespace Covenant

namespace Recorded

variable {α β : Type}

theorem counts_bind_nil {x : Recorded α} {f : α → Recorded β} (hx : x.counts = [])
    (hf : ∀ a, (f a).counts = []) : (x >>= f).counts = [] := by
  rw [counts_bind, hx, hf, List.nil_append]

theorem counts_foldlM_nil {f : β → α → Recorded β} (hf : ∀ b a, (f b a).counts = [])
    (xs : List α) (b : β) : (xs.foldlM f b).counts = [] := by
  induction xs generalizing b with
  | nil => rfl
  | cons x rest ih =>
    rw [List.foldlM_cons]
    exact counts_bind_nil (hf b x) ih

end Recorded

open Recorded

namespace Pipeline

theorem readPart_counts (p : Pipeline) (schema : Option RecordSchema)
    (extract : RecordSchema → Except ContractError Instance) (target : Stage) :
    (p.readPart schema extract target).counts = [] := by
  unfold readPart
  cases schema with
  | none => rfl
  | some s =>
    dsimp only
    cases extract s with
    | error e => rfl
    | ok part => rfl

theorem finish_counts (p : Pipeline) : p.finish.counts = [] := by
  unfold finish
  cases combine p.contract.schema p.parts with
  | error e => rfl
  | ok r => rfl

theorem run_counts (p : Pipeline) (captures : Captures) (body : Json.Value) :
    (p.run captures body).counts = [] := by
  unfold run
  split
  · rfl
  · apply counts_bind_nil (readPart_counts _ _ _ _)
    rintro ⟨q, e | ⟨⟩⟩
    · rfl
    · apply counts_bind_nil (readPart_counts _ _ _ _)
      rintro ⟨r, e | ⟨⟩⟩
      · rfl
      · exact r.finish_counts

end Pipeline

namespace Docs

theorem define_counts (definitions : List (String × Definition)) (s : RecordSchema) :
    (define definitions s).counts = [] := by
  unfold define
  cases definitions.lookup s.name with
  | none => rfl
  | some previous =>
    dsimp only
    split
    · rfl
    · rfl

theorem Document.ofRegistry_counts (basic : BasicInfo) (registry : Registry) :
    (ofRegistry basic registry).counts = [] :=
  counts_bind_nil (counts_foldlM_nil define_counts _ _) fun _ => rfl

theorem Document.write_counts (d : Document) (directory : Directory) (path : String) :
    (d.write? directory path).counts = [] := by
  unfold write?
  split
  · rfl
  · rfl

end Docs

namespace Exchange

variable {registry : Registry} {policy : Policy} {context : Context} {captures : Captures}
  {status : Status} {body : Json.Value}

/-- What the check of a request counts, by the operation that is bound and the outcome. -/
inductive RequestCounts (registry : Registry) (policy : Policy) :
    Option String → Except ContractError Unit → List Count → Prop
  | off {operation : Option String} (off : policy.validateRequests = false) :
      RequestCounts registry policy operation (.ok ()) []
  | unbound {e : ContractError} : RequestCounts registry policy none (.error e) []
  | unregistered {id : String} {e : ContractError} (unknown : registry.get? id = none) :
      RequestCounts registry policy (some id) (.error e) []
  | validated {id : String} {o : Operation} (on : policy.validateRequests = true)
      (known : registry.get? id = some o) :
      RequestCounts registry policy (some id) (.ok ()) [.requestValidated id]
  | rejected {id : String} {o : Operation} {e : ContractError}
      (on : policy.validateRequests = true) (known : registry.get? id = some o) :
      RequestCounts registry policy (some id) (.error e) [.requestRejected id]

theorem validateRequest_counts :
    RequestCounts registry policy context.operation
      (validateRequest registry policy context captures body).value.2
      (validateRequest registry policy context captures body).counts := by
  unfold validateRequest Context.operationOrError Registry.contractOf
  cases hv : policy.validateRequests with
  | false => exact .off hv
  | true =>
    cases context.operation with
    | none => exact .unbound
    | some id =>
      dsimp only
      cases ho : registry.get? id with
      | none => exact .unregistered ho
      | some o =>
        simp only [Bool.not_true, Bool.false_eq_true, if_false, counts_bind, value_bind,
          Pipeline.run_counts, List.nil_append]
        rcases (Pipeline.run _ captures body).value with ⟨q, e | request⟩
        · exact .rejected hv ho
        · exact .validated hv ho

def declared? (registry : Registry) (id : String) (status : Status) : Option ResponseContract := do
  (← registry.get? id).contract.responses.lookup status

/-- What the check of a response counts, by the operation that is bound: one step where the body
breaks the schema declared for the status, and nothing where none is declared. -/
inductive ResponseCounts (registry : Registry) (policy : Policy) (status : Status)
    (body : Json.Value) : Option String → List Count → Prop
  | off {operation : Option String} (off : policy.validateResponses = false) :
      ResponseCounts registry policy status body operation []
  | unbound : ResponseCounts registry policy status body none []
  | undeclared {id : String} (unknown : declared? registry id status = none) :
      ResponseCounts registry policy status body (some id) []
  | accepted {id : String} {response : ResponseContract}
      (known : declared? registry id status = some response)
      (accepts : response.schema.Accepts body) :
      ResponseCounts registry policy status body (some id) []
  | broken {id : String} {response : ResponseContract} (on : policy.validateResponses = true)
      (known : declared? registry id status = some response)
      (breaks : ¬response.schema.Accepts body) :
      ResponseCounts registry policy status body (some id) [.responseRejected id status.code]

theorem responseContract_eq (registry : Registry) (id : String) (status : Status) :
    (∃ response, declared? registry id status = some response ∧
      responseContract registry id status = .ok response) ∨
    declared? registry id status = none ∧
      ∃ e, responseContract registry id status = .error e := by
  unfold declared? responseContract Registry.contractOf
  cases registry.get? id with
  | none => exact .inr ⟨rfl, _, rfl⟩
  | some o =>
    simp only [Option.bind_eq_bind, Option.bind_some, Outcome.ok_bind]
    cases o.contract.responses.lookup status with
    | none => exact .inr ⟨rfl, _, rfl⟩
    | some response => exact .inl ⟨response, rfl, rfl⟩

theorem validateResponse_counts :
    ResponseCounts registry policy status body context.operation
      (validateResponse registry policy context status body).counts := by
  unfold validateResponse Context.operationOrError
  cases hv : policy.validateResponses with
  | false => exact .off hv
  | true =>
    cases context.operation with
    | none => exact .unbound
    | some id =>
      rcases responseContract_eq registry id status with ⟨response, hd, hr⟩ | ⟨hd, e, hr⟩
      · have haccepts := response.schema.accepts_iff (v := body)
        simp only [hr]
        cases hread : Validation.validateRecord response.schema body with
        | ok r => exact .accepted hd (haccepts.mpr (by rw [hread]; rfl))
        | error p =>
          refine .broken hv hd ?_
          rw [haccepts, hread]
          exact Bool.false_ne_true
      · simp only [hr]
        cases e with
        | undeclaredStatus operation code =>
          dsimp only
          split
          · exact .undeclared hd
          · split
            · exact .undeclared hd
            · exact .undeclared hd
        | _ => exact .undeclared hd

end Exchange

namespace Service

inductive Call where
  | route (id : RequestId) (method : Method) (path : String)
  | beforeDispatch (context : Context) (captures : Captures) (body : Json.Value)
  | afterHandler (context : Context) (status : Status) (body : Json.Value)
  | render (context : Context) (status : Status) (content : Instance)
  | errorResponse (context : Context) (e : ContractError)
  | document (info : Docs.BasicInfo)
  | write (info : Docs.BasicInfo) (directory : Directory) (path : String)
  | writeConfigured (directory : Directory)

inductive Reply where
  | routed (found : Option (Context × Captures))
  | checked (context : Context) (outcome : Except ContractError Unit)
  | answered (outcome : Except ContractError Unit)
  | rendered (outcome : Except ContractError (Status × Json.Value))
  | told (status : UInt16) (body : Json.Value)
  | documented (document : Docs.Document)
  | written (text : Option String)

def perform (s : Service) : Call → Recorded Reply
  | .route id method path => return .routed (s.route? id method path)
  | .beforeDispatch context captures body => do
    let (after, outcome) ← s.beforeDispatch context captures body
    return .checked after outcome
  | .afterHandler context status body => return .answered (← s.afterHandler context status body)
  | .render context status content => return .rendered (s.render context status content)
  | .errorResponse context e =>
    let (status, body) := Exchange.errorResponse context e
    return .told status body
  | .document info => return .documented (← s.document info)
  | .write info directory path => return .written (← (← s.document info).write? directory path)
  | .writeConfigured directory => return .written (← s.writeConfigured? directory)

def serve (s : Service) : List Call → Recorded (List (Call × Reply))
  | [] => return []
  | call :: rest => do
    let reply ← s.perform call
    return (call, reply) :: (← s.serve rest)

/-- The calls that a counter counts: checks of a request bound to the operation that succeeded, or
that failed although the operation is registered, and checks of a response bound to the operation
whose declared schema the body breaks. -/
def raises (s : Service) : Count → Call × Reply → Bool
  | .requestValidated id, (.beforeDispatch context _ _, .checked _ (.ok ())) =>
    s.policy.validateRequests && context.operation == some id
  | .requestRejected id, (.beforeDispatch context _ _, .checked _ (.error _)) =>
    s.policy.validateRequests && context.operation == some id && (s.registry.get? id).isSome
  | .responseRejected id code, (.afterHandler context status body, _) =>
    s.policy.validateResponses && context.operation == some id && status.code == code &&
      (Exchange.declared? s.registry id status).any fun response =>
        !decide (response.schema.Accepts body)
  | _, _ => false

theorem count_of_request {s : Service} {context : Context} {outcome : Except ContractError Unit}
    {counts : List Count}
    (h : Exchange.RequestCounts s.registry s.policy context.operation outcome counts)
    (captures : Captures) (body : Json.Value) (after : Context) (k : Count) :
    counts.count k =
      if s.raises k (.beforeDispatch context captures body, .checked after outcome) then 1
      else 0 := by
  generalize hop : context.operation = operation at h
  cases h with
  | off off => cases k <;> simp [raises, off]
  | unbound => cases k <;> simp [raises, hop]
  | unregistered unknown => cases k <;> grind [raises]
  | validated on known => cases k <;> grind [raises]
  | rejected on known => cases k <;> grind [raises]

theorem count_of_response {s : Service} {context : Context} {status : Status} {body : Json.Value}
    {counts : List Count}
    (h : Exchange.ResponseCounts s.registry s.policy status body context.operation counts)
    (reply : Reply) (k : Count) :
    counts.count k =
      if s.raises k (.afterHandler context status body, reply) then 1 else 0 := by
  generalize hop : context.operation = operation at h
  cases h with
  | off off => cases k <;> simp [raises, off]
  | unbound => cases k <;> simp [raises, hop]
  | undeclared unknown => cases k <;> grind [raises]
  | accepted known accepts => cases k <;> grind [raises]
  | broken on known breaks => cases k <;> grind [raises]

theorem perform_count (s : Service) (call : Call) (k : Count) :
    (s.perform call).counts.count k =
      if s.raises k (call, (s.perform call).value) then 1 else 0 := by
  cases call with
  | beforeDispatch context captures body =>
    have hcounts : (s.perform (.beforeDispatch context captures body)).counts =
      (s.beforeDispatch context captures body).counts := List.append_nil _
    rw [hcounts]
    exact count_of_request Exchange.validateRequest_counts captures body _ k
  | afterHandler context status body =>
    have hcounts : (s.perform (.afterHandler context status body)).counts =
      (s.afterHandler context status body).counts := List.append_nil _
    rw [hcounts]
    exact count_of_response Exchange.validateResponse_counts _ k
  | route id method path => cases k <;> rfl
  | render context status content => cases k <;> rfl
  | errorResponse context e => cases k <;> rfl
  | document info =>
    have hnil : (s.perform (.document info)).counts = [] :=
      counts_bind_nil (Docs.Document.ofRegistry_counts _ _) fun _ => rfl
    rw [hnil]
    cases k <;> rfl
  | write info directory path =>
    have hnil : (s.perform (.write info directory path)).counts = [] :=
      counts_bind_nil (Docs.Document.ofRegistry_counts _ _) fun d =>
        counts_bind_nil (d.write_counts directory path) fun _ => rfl
    rw [hnil]
    cases k <;> rfl
  | writeConfigured directory =>
    have hnil : (s.perform (.writeConfigured directory)).counts = [] :=
      counts_bind_nil (counts_bind_nil (Docs.Document.ofRegistry_counts _ _) fun d =>
        d.write_counts directory s.documentPath) fun _ => rfl
    rw [hnil]
    cases k <;> rfl

theorem serve_value (s : Service) (calls : List Call) :
    (s.serve calls).value = calls.map fun call => (call, (s.perform call).value) := by
  induction calls with
  | nil => rfl
  | cons call rest ih => rw [serve, value_bind, value_bind, value_pure, ih, List.map_cons]

theorem serve_count (s : Service) (calls : List Call) (k : Count) :
    (s.serve calls).counts.count k = (s.serve calls).value.countP (s.raises k) := by
  induction calls with
  | nil => rfl
  | cons call rest ih =>
    rw [serve, counts_bind, counts_bind, counts_pure, List.append_nil, List.count_append,
      value_bind, value_bind, value_pure, List.countP_cons, perform_count, ih, Nat.add_comm]

/-- Over any calls each counter rises by the number of calls that it counts, as many as had the
outcome it stands for; a call that none of them counts changes none. -/
theorem counters_count_outcomes (s : Service) (calls : List Call) :
    let served := s.serve calls
    served.value = (calls.map fun call => (call, (s.perform call).value)) ∧
    (∀ k, served.counts.count k = served.value.countP (s.raises k)) ∧
    ∀ call, (∀ k, s.raises k (call, (s.perform call).value) = false) →
      (s.perform call).counts = [] := by
  refine ⟨s.serve_value calls, s.serve_count calls, ?_⟩
  intro call hnone
  rw [List.eq_nil_iff_forall_not_mem]
  intro k
  rw [← List.count_eq_zero, s.perform_count call k, hnone k]
  rfl

end Service

end Covenant
