import Covenant.Proofs.Accounting

namespace Covenant.Exchange

variable {registry : Registry} {policy : Policy} {context : Context} {status : Status}
  {body : Json.Value}

/-- What there is to say of a response. -/
inductive Finding where
  | unbound
  | unregistered (id : String)
  | undeclared (id : String)
  | broken (id : String) (problem : Problem)
  | sound

def finding (registry : Registry) (context : Context) (status : Status) (body : Json.Value) :
    Finding :=
  match context.operation with
  | none => .unbound
  | some id =>
    match registry.get? id with
    | none => .unregistered id
    | some _ =>
      match declared? registry id status with
      | none => .undeclared id
      | some response =>
        match Validation.validateRecord response.schema body with
        | .ok _ => .sound
        | .error p => .broken id p

/-- What the flags make of a finding. -/
def Finding.answer (policy : Policy) (requestId : String) (status : Status) :
    Finding → Recorded (Except ContractError Unit)
  | .unbound => return .error DefinitionFault.noOperation.error
  | .unregistered id => return .error (.unmappedOperation id)
  | .undeclared id =>
    if policy.allowUndeclaredStatus then do
      Recorded.emit (.statusUnchecked id requestId status.code)
      return .ok ()
    else return .error (.undeclaredStatus id status.code)
  | .broken id p => do
    Recorded.emit (.responseRejected id requestId status.code p)
    Recorded.count (.responseRejected id status.code)
    return verdict policy p
  | .sound => return .ok ()

theorem validateResponse_eq_answer :
    validateResponse registry policy context status body =
      if policy.validateResponses then
        (finding registry context status body).answer policy context.id.text status
      else pure (.ok ()) := by
  unfold validateResponse Context.operationOrError responseContract finding declared?
    Registry.contractOf
  cases policy.validateResponses with
  | false => rfl
  | true =>
    cases context.operation with
    | none => rfl
    | some id =>
      cases ho : registry.get? id with
      | none => simp [ho, Finding.answer, Outcome.error_bind]
      | some o =>
        cases hr : o.contract.responses.lookup status with
        | none => simp [ho, hr, Finding.answer, Outcome.ok_bind]
        | some response =>
          simp only [ho, hr, Outcome.ok_bind, Option.bind_eq_bind, Option.bind_some]
          cases Validation.validateRecord response.schema body with
          | ok r => rfl
          | error p => rfl

theorem finding_eq_broken {id : String} {p : Problem} :
    finding registry context status body = .broken id p ↔
      context.operation = some id ∧ ∃ response, declared? registry id status = some response ∧
        Validation.validateRecord response.schema body = .error p := by
  unfold finding
  cases context.operation with
  | none => simp
  | some bound =>
    cases ho : registry.get? bound with
    | none =>
      have hnone : declared? registry bound status = none := by rw [declared?, ho]; rfl
      grind
    | some o =>
      cases hr : declared? registry bound status with
      | none => grind
      | some response =>
        cases hread : Validation.validateRecord response.schema body with
        | ok r => grind
        | error q => grind

theorem Finding.answer_eq_response {requestId : String} {found : Finding} {p : Problem} :
    (found.answer policy requestId status).value = .error (.response p) ↔
      policy.enforceResponses = true ∧ ∃ id, found = .broken id p := by
  cases found with
  | undeclared id =>
    rw [answer]
    split <;> simp
  | broken id q => cases h : policy.enforceResponses <;> simp [answer, verdict, h]
  | _ => simp [answer, DefinitionFault.error]

section Flags

variable (policy) (requestId : String) (status : Status) (found : Finding)

/-- Whether a broken contract is an error does not show in the log or the counters. -/
theorem Finding.answer_enforce :
    let answer (b : Bool) :=
      found.answer { policy with enforceResponses := b } requestId status
    (answer true).events = (answer false).events ∧
    (answer true).counts = (answer false).counts ∧
    ((answer true).value = (answer false).value ∨
      ∃ p, (answer true).value = .error (.response p) ∧ (answer false).value = .ok ()) := by
  cases found with
  | undeclared id =>
    intro answer
    have hsame : answer true = answer false := rfl
    exact ⟨by rw [hsame], by rw [hsame], .inl (by rw [hsame])⟩
  | broken id p => exact ⟨rfl, rfl, .inr ⟨p, rfl, rfl⟩⟩
  | _ => exact ⟨rfl, rfl, .inl rfl⟩

/-- Whether an undeclared status may pass makes a difference for such a status only. -/
theorem Finding.answer_allow :
    let answer (b : Bool) :=
      found.answer { policy with allowUndeclaredStatus := b } requestId status
    (answer true).counts = (answer false).counts ∧
    (answer true = answer false ∨ ∃ id,
      answer false = pure (.error (.undeclaredStatus id status.code)) ∧
      (answer true).events = [.statusUnchecked id requestId status.code] ∧
      (answer true).value = .ok ()) := by
  cases found with
  | undeclared id => exact ⟨rfl, .inr ⟨id, rfl, rfl, rfl⟩⟩
  | _ => exact ⟨rfl, .inl rfl⟩

end Flags

/-- Of two policies that differ only in whether responses are enforced, both log and count the same,
and the outcomes differ only where the one refuses a response that breaks its contract and the other
lets it pass. Of two that differ only in whether undeclared statuses are allowed, both count the
same, and they differ only where the one refuses such a status and the other notes it and lets it
pass. A response is refused with the very problem that its declared schema has with the body, and an
operation that is not bound or not known is an error whatever the other flags are. -/
theorem flags_change_only_the_verdict (registry : Registry) (context : Context) (status : Status)
    (body : Json.Value) (policy : Policy) :
    let check (p : Policy) := validateResponse registry p context status body
    let enforcing (b : Bool) := check { policy with enforceResponses := b }
    let allowing (b : Bool) := check { policy with allowUndeclaredStatus := b }
    ((enforcing true).events = (enforcing false).events ∧
      (enforcing true).counts = (enforcing false).counts ∧
      ((enforcing true).value = (enforcing false).value ∨
        ∃ p, (enforcing true).value = .error (.response p) ∧ (enforcing false).value = .ok ())) ∧
    ((allowing true).counts = (allowing false).counts ∧
      (allowing true = allowing false ∨ ∃ id,
        allowing false = pure (.error (.undeclaredStatus id status.code)) ∧
        (allowing true).events = [.statusUnchecked id context.id.text status.code] ∧
        (allowing true).value = .ok ())) ∧
    (policy.validateResponses = true →
      (∀ p, (check policy).value = .error (.response p) ↔
        policy.enforceResponses = true ∧ ∃ id response, context.operation = some id ∧
          declared? registry id status = some response ∧
          Validation.validateRecord response.schema body = .error p) ∧
      (context.operation = none → check policy = pure (.error DefinitionFault.noOperation.error)) ∧
      ∀ id, context.operation = some id → registry.get? id = none →
        check policy = pure (.error (.unmappedOperation id))) := by
  intro check enforcing allowing
  have hcheck : ∀ p : Policy, check p = if p.validateResponses then
      (finding registry context status body).answer p context.id.text status
      else pure (.ok ()) := fun p => validateResponse_eq_answer
  refine ⟨?_, ?_, ?_⟩
  · simp only [enforcing, hcheck]
    cases policy.validateResponses with
    | false => exact ⟨rfl, rfl, .inl rfl⟩
    | true => exact Finding.answer_enforce policy context.id.text status _
  · simp only [allowing, hcheck]
    cases policy.validateResponses with
    | false => exact ⟨rfl, .inl rfl⟩
    | true => exact Finding.answer_allow policy context.id.text status _
  · intro hon
    rw [hcheck, if_pos hon]
    refine ⟨fun p => ?_, fun hop => ?_, fun id hop hget => ?_⟩
    · simp only [Finding.answer_eq_response, finding_eq_broken, exists_and_left]
    · rw [finding, hop]
      rfl
    · rw [finding, hop]
      simp only [hget]
      rfl

end Covenant.Exchange
