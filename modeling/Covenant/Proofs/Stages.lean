import Covenant.Exchange.Pipeline
import Covenant.Policy

namespace Covenant

/-- The events of passing from one stage to another: each leads on from the stage that the one
before led to, to a later one. -/
inductive Trail (operation : String) : Stage → List Event → Stage → Prop
  | rest (s : Stage) : Trail operation s [] s
  | step {s t u : Stage} {events : List Event} (h : s.rank < t.rank)
    (more : Trail operation t events u) : Trail operation s (.stageReached operation s t :: events) u

namespace Trail

variable {operation : String} {s t u : Stage} {events more : List Event}

theorem append (h : Trail operation s events t) (g : Trail operation t more u) :
    Trail operation s (events ++ more) u := by
  induction h with
  | rest => exact g
  | step hlt _ ih => exact .step hlt (ih g)

theorem rank_le (h : Trail operation s events t) : s.rank ≤ t.rank := by
  induction h with
  | rest => exact Nat.le_refl _
  | step hlt _ ih => exact Nat.le_of_lt (Nat.lt_of_lt_of_le hlt ih)

end Trail

theorem Stage.eq_unvalidated_of_rank_le {s : Stage} (h : s.rank ≤ Stage.unvalidated.rank) :
    s = .unvalidated := by
  cases s <;> simp_all [Stage.rank]

namespace Pipeline

/-- A pipeline with what was reported on the way to it: later stages were passed one by one, and if
there were none the pipeline is the same. -/
structure Leads (p : Pipeline) (events : List Event) (q : Pipeline) : Prop where
  trail : Trail p.operation p.stage events q.stage
  operation : q.operation = p.operation
  untouched : q.stage = .unvalidated → q = p

namespace Leads

variable {p q r : Pipeline} {events more : List Event}

theorem refl (p : Pipeline) : p.Leads [] p := ⟨.rest _, rfl, fun _ => rfl⟩

theorem trans (h : p.Leads events q) (g : q.Leads more r) : p.Leads (events ++ more) r := by
  refine ⟨h.trail.append (h.operation ▸ g.trail), g.operation.trans h.operation, ?_⟩
  intro hr
  have hq : q.stage = .unvalidated :=
    Stage.eq_unvalidated_of_rank_le (hr ▸ g.trail.rank_le)
  exact (g.untouched hr).trans (h.untouched hq)

end Leads

theorem advance_leads {p : Pipeline} {target : Stage} (h : p.stage.rank < target.rank) :
    p.Leads (p.advance target).events (p.advance target).value := by
  refine ⟨.step h (.rest _), rfl, ?_⟩
  rintro rfl
  exact absurd h (Nat.not_lt_zero _)

theorem absorb_leads {p : Pipeline} (part : Instance) {target : Stage}
    (h : p.stage.rank < target.rank) :
    p.Leads (p.absorb part target).events (p.absorb part target).value := by
  refine ⟨.step h (.rest _), rfl, ?_⟩
  rintro rfl
  exact absurd h (Nat.not_lt_zero _)

theorem readPart_leads (p : Pipeline) (schema : Option RecordSchema)
    (extract : RecordSchema → Except ContractError Instance) {target : Stage}
    (h : p.stage.rank < target.rank) :
    p.Leads (p.readPart schema extract target).events
        (p.readPart schema extract target).value.1 ∧
      (p.readPart schema extract target).value.1.stage.rank ≤ target.rank := by
  unfold readPart
  cases schema with
  | none => exact ⟨.refl p, Nat.le_of_lt h⟩
  | some s =>
    dsimp only
    cases extract s with
    | error e => exact ⟨.refl p, Nat.le_of_lt h⟩
    | ok part => exact ⟨absorb_leads part h, Nat.le_refl _⟩

/-- A pipeline leads on to the end of a run, which is a success just in the last stage. -/
structure Ends (p : Pipeline) (x : Recorded (Pipeline × Except ContractError Instance)) : Prop where
  leads : p.Leads x.events x.value.1
  ok_iff : (∃ r, x.value.2 = .ok r) ↔ x.value.1.stage = .ready

theorem ends_failed {p : Pipeline} (h : p.stage.rank < Stage.combined.rank) (e : ContractError) :
    p.Ends (pure (p, .error e)) := by
  refine ⟨.refl p, ?_⟩
  constructor
  · rintro ⟨r, hr⟩
    cases hr
  · intro hr
    have hr : p.stage = .ready := hr
    rw [hr] at h
    exact absurd h (by decide)

theorem finish_ends {p : Pipeline} (h : p.stage.rank < Stage.combined.rank) :
    p.Ends p.finish := by
  unfold finish
  cases combine p.contract.schema p.parts with
  | error e => exact ends_failed h e
  | ok r =>
    refine ⟨?_, fun _ => rfl, fun _ => ⟨r, rfl⟩⟩
    exact (advance_leads h).trans (advance_leads (Nat.lt_succ_self _))

theorem ends_readPart {p : Pipeline} (schema : Option RecordSchema)
    (extract : RecordSchema → Except ContractError Instance) {target : Stage}
    (h : p.stage.rank < target.rank) (ht : target.rank < Stage.combined.rank)
    {more : Pipeline → Recorded (Pipeline × Except ContractError Instance)}
    (hmore : ∀ q : Pipeline, q.stage.rank ≤ target.rank → q.Ends (more q)) :
    p.Ends (do
      match ← p.readPart schema extract target with
      | (q, .error e) => return (q, .error e)
      | (q, .ok ()) => more q) := by
  obtain ⟨hleads, hrank⟩ := p.readPart_leads schema extract h
  have hend : ∀ k : Pipeline × Except ContractError Unit → _,
      (p.readPart schema extract target).value.1.Ends (k (p.readPart schema extract target).value) →
        p.Ends (p.readPart schema extract target >>= k) :=
    fun k hk => ⟨hleads.trans hk.leads, hk.ok_iff⟩
  apply hend
  rcases hread : (p.readPart schema extract target).value with ⟨q, e | ⟨⟩⟩
  · rw [hread] at hrank
    exact ends_failed (Nat.lt_of_le_of_lt hrank ht) e
  · rw [hread] at hrank
    exact hmore q hrank

theorem run_ends {p : Pipeline} (hs : p.stage = .unvalidated) (captures : Captures)
    (body : Json.Value) : p.Ends (p.run captures body) := by
  have hstart : p.stage.rank < Stage.pathValidated.rank := by
    rw [hs]
    decide
  unfold run
  rw [if_neg (Decidable.not_not.mpr hs)]
  apply ends_readPart _ _ hstart (by decide)
  intro q hq
  apply ends_readPart _ _ (Nat.lt_of_le_of_lt hq (Nat.lt_succ_self _)) (by decide)
  intro r hr
  exact finish_ends (Nat.lt_of_le_of_lt hr (Nat.lt_succ_self _))

theorem run_refused {p : Pipeline} (hs : p.stage ≠ .unvalidated) (captures : Captures)
    (body : Json.Value) :
    p.run captures body =
      pure (p, .error (DefinitionFault.finishedPipeline p.operation).error) := by
  unfold run
  rw [if_pos hs]

theorem run_leads (p : Pipeline) (captures : Captures) (body : Json.Value) :
    p.Leads (p.run captures body).events (p.run captures body).value.1 := by
  by_cases hs : p.stage = .unvalidated
  · exact (run_ends hs captures body).leads
  · rw [run_refused hs]
    exact .refl p

/-- A pipeline as it is made for a request. -/
def start (operation : String) (contract : RequestContract) (policy : Policy) : Pipeline :=
  { operation, contract, rejectMissingFields := policy.rejectMissingFields }

/-- The pipeline after some runs, whatever came of them. -/
def after (p : Pipeline) : List (Captures × Json.Value) → Recorded Pipeline
  | [] => pure p
  | (captures, body) :: rest => do
    let (q, _) ← p.run captures body
    q.after rest

theorem after_leads (p : Pipeline) (calls : List (Captures × Json.Value)) :
    p.Leads (p.after calls).events (p.after calls).value := by
  induction calls generalizing p with
  | nil => exact .refl p
  | cons call rest ih => exact (p.run_leads call.1 call.2).trans (ih _)

/-- However often a pipeline was run, its stages make one trail from the first on. In the first
stage it is as it was made, and another run is what a first run would be, a success just if it comes
to the last stage; in any other stage another run is refused and changes nothing. -/
theorem runs_follow_stages (operation : String) (contract : RequestContract) (policy : Policy)
    (calls : List (Captures × Json.Value)) (captures : Captures) (body : Json.Value) :
    let made := start operation contract policy
    let p := (made.after calls).value
    let next := p.run captures body
    Trail operation .unvalidated (made.after calls).events p.stage ∧
    Trail operation p.stage next.events next.value.1.stage ∧
    p.stage.rank ≤ next.value.1.stage.rank ∧
    (p.stage = .unvalidated → p.parts = [] ∧ next = made.run captures body ∧
      ((∃ r, next.value.2 = .ok r) ↔ next.value.1.stage = .ready)) ∧
    (p.stage ≠ .unvalidated →
      next = pure (p, .error (DefinitionFault.finishedPipeline operation).error)) := by
  intro made p next
  have hpast : made.Leads (made.after calls).events p := made.after_leads calls
  have hnext : p.Leads next.events next.value.1 := p.run_leads captures body
  have hop : p.operation = operation := hpast.operation
  refine ⟨hpast.trail, hop ▸ hnext.trail, hnext.trail.rank_le, ?_, ?_⟩
  · intro hs
    have hp : p = made := hpast.untouched hs
    exact ⟨by rw [hp]; rfl, by simp only [next, hp], (run_ends hs captures body).ok_iff⟩
  · intro hs
    rw [← hop]
    exact run_refused hs captures body

end Pipeline

end Covenant
