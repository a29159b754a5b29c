import Covenant.Proofs.Assembly
import Covenant.Proofs.Refusal
import Covenant.Proofs.Stages

namespace Covenant

namespace RequestContract

/-- No field is declared by both parts. -/
def Disjoint (c : RequestContract) : Prop :=
  ∀ path body, c.path = some path → c.body = some body →
    ∀ f ∈ body.fieldNames, f ∉ path.fieldNames

/-- Every field of the request is declared by a part, with an equal type. -/
def Covered (c : RequestContract) : Prop :=
  ∀ f t, (f, t) ∈ c.schema.fields → ∃ part ∈ c.parts, part.fieldType? f = some t

variable {c : RequestContract}

theorem disjoint_iff : c.Disjoint ↔ c.sharedFault? = none := by
  simp only [Disjoint, sharedFault_eq_none, ← RecordSchema.declares_iff, Bool.not_eq_true]

theorem supplier_of_disjoint (h : c.Disjoint) {part : RecordSchema} (hp : part ∈ c.parts)
    {f : String} {t : FieldType} (ht : part.fieldType? f = some t) :
    c.supplier? f = some (part, t) := by
  cases hs : c.supplier? f with
  | none =>
    have hnone := List.findSome?_eq_none_iff.mp hs part hp
    simp [ht] at hnone
  | some found =>
    obtain ⟨q, u⟩ := found
    obtain ⟨hq, hu⟩ := supplier_eq_some hs
    have hpf := RecordSchema.declares_of_fieldType ht
    have hqf := RecordSchema.declares_of_fieldType hu
    obtain rfl : part = q := exclusive (disjoint_iff.mp h) hp hq hpf hqf
    rw [ht, Option.some.injEq] at hu
    rw [hu]

theorem fieldFault_of_disjoint (h : c.Disjoint) {f : String} {t : FieldType} :
    c.fieldFault? f t = none ↔ ∃ part ∈ c.parts, part.fieldType? f = some t := by
  rw [fieldFault_eq_none]
  constructor
  · rintro ⟨part, hp⟩
    exact ⟨part, supplier_eq_some hp⟩
  · rintro ⟨part, hp, ht⟩
    exact ⟨part, supplier_of_disjoint h hp ht⟩

theorem check_iff : c.check = .ok () ↔ c.Disjoint ∧ c.Covered := by
  rw [check_eq_ok, fault?, Option.or_eq_none_iff, ← disjoint_iff]
  refine and_congr_right ?_
  intro h
  simp only [List.findSome?_eq_none_iff, Prod.forall, fieldFault_of_disjoint h, Covered]

variable {reject : Bool} {captures : Captures} {body : Json.Value}

theorem overlayValues_isSome_of_strict {first second : List Instance}
    (hfirst : partOf c.path (Extraction.path captures true) = .ok first)
    (hsecond : partOf c.body (Extraction.body body true) = .ok second) {part : RecordSchema}
    (hp : part ∈ c.parts) {f : String} (hf : f ∈ part.fieldNames) :
    (overlayValues (first ++ second) f).isSome = true := by
  rw [parts, List.mem_append, Option.mem_toList, Option.mem_toList] at hp
  rcases hp with hp | hp
  · obtain ⟨r, hr, hset⟩ := exists_isSet_of_partOf
      (fun hx => Extraction.record_isSet_of_strict hx hf) hfirst hp
    exact overlayValues_isSome (List.mem_append_left _ hr) hset
  · obtain ⟨r, hr, hset⟩ := exists_isSet_of_partOf
      (fun hx => Extraction.record_isSet_of_strict (Extraction.body_eq_ok.mp hx).2 hf) hsecond hp
    exact overlayValues_isSome (List.mem_append_right _ hr) hset

theorem assemble_ne_missingField (hc : c.check = .ok ()) (captures : Captures) (body : Json.Value)
    (schema field : String) :
    c.assemble true captures body ≠ .error (.missingField schema field) := by
  intro h
  rcases assemble_eq_error.mp h with h | ⟨first, hfirst, h | ⟨second, hsecond, h⟩⟩
  · obtain ⟨s, -, hx⟩ := partOf_error.mp h
    obtain ⟨p, he⟩ := Extraction.path_error_request hx
    cases he
  · obtain ⟨s, -, hx⟩ := partOf_error.mp h
    obtain ⟨p, he⟩ := Extraction.body_error_request hx
    cases he
  · obtain ⟨f, hf, hnone, -⟩ := combine_error h
    obtain ⟨⟨_, t⟩, ht, rfl⟩ := List.mem_map.mp hf
    obtain ⟨part, hp, hpt⟩ := (check_iff.mp hc).2 _ t ht
    have hset := overlayValues_isSome_of_strict hfirst hsecond hp (RecordSchema.mem_fieldNames hpt)
    simp [hnone] at hset

theorem assemble_fails {f : String} (hf : f ∈ c.schema.fieldNames)
    (h : ∀ part ∈ c.parts, f ∉ part.fieldNames) (reject : Bool) (captures : Captures)
    (body : Json.Value) : ∃ e, c.assemble reject captures body = .error e := by
  cases ha : c.assemble reject captures body with
  | error e => exact ⟨e, rfl⟩
  | ok r =>
    obtain ⟨first, second, hfirst, hsecond, hcombine⟩ := assemble_eq_ok.mp ha
    obtain ⟨q, hq, d, hd⟩ := combine_sets hcombine hf
    obtain ⟨part, hp, -, hfit⟩ := partOf_partial hfirst hsecond hq
    obtain ⟨t, ht, -⟩ := hfit f d hd
    exact absurd (RecordSchema.mem_fieldNames ht) (h part hp)

end RequestContract

namespace Pipeline

theorem run_of_after (operation : String) (c : RequestContract) (policy : Policy)
    (calls : List (Captures × Json.Value)) (captures : Captures) (body : Json.Value) :
    let next := (((start operation c policy).after calls).value.run captures body).value.2
    next = c.assemble policy.rejectMissingFields captures body ∨
      next = .error (DefinitionFault.finishedPipeline operation).error := by
  intro next
  let p := ((start operation c policy).after calls).value
  have hpast : (start operation c policy).Leads _ p := (start operation c policy).after_leads calls
  by_cases hs : p.stage = .unvalidated
  · have hp : p = start operation c policy := hpast.untouched hs
    have hnext : next = (p.run captures body).value.2 := rfl
    rw [hnext, hp]
    exact .inl (run_value rfl rfl captures body)
  · have hnext : next = (p.run captures body).value.2 := rfl
    rw [hnext, run_refused hs, show p.operation = operation from hpast.operation]
    exact .inr rfl

end Pipeline

/-- The check passes just where no field is declared by both parts and every field of the request is
declared, with an equal type, by one of them. Where it passes, no run that rejects absence fails for
a missing field; and where some field of the request is declared by neither part, every run
fails. -/
theorem RequestContract.check_decides (c : RequestContract) :
    (c.check = .ok () ↔ c.Disjoint ∧ c.Covered) ∧
    ∀ (operation : String) (policy : Policy) (calls : List (Captures × Json.Value))
      (captures : Captures) (body : Json.Value),
      let p := ((Pipeline.start operation c policy).after calls).value
      let outcome := (p.run captures body).value.2
      (c.check = .ok () → policy.rejectMissingFields = true →
        ∀ schema field, outcome ≠ .error (.missingField schema field)) ∧
      ((∃ f ∈ c.schema.fieldNames, ∀ part ∈ c.parts, f ∉ part.fieldNames) →
        ∃ e, outcome = .error e) := by
  refine ⟨check_iff, ?_⟩
  intro operation policy calls captures body p outcome
  have houtcome := Pipeline.run_of_after operation c policy calls captures body
  constructor
  · intro hc hreject schema field h
    rcases houtcome with heq | heq
    · rw [hreject] at heq
      exact assemble_ne_missingField hc captures body schema field (heq.symm.trans h)
    · cases heq.symm.trans h
  · rintro ⟨f, hf, hnone⟩
    rcases houtcome with heq | heq
    · obtain ⟨e, he⟩ := assemble_fails hf hnone policy.rejectMissingFields captures body
      exact ⟨e, heq.trans he⟩
    · exact ⟨_, heq⟩

end Covenant
