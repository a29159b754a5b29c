import Covenant.Proofs.Combination
import Covenant.Proofs.Stages

namespace Covenant

open Json Validation Extraction

namespace RequestContract

/-- No field of the path is refused. -/
def PathTaken (c : RequestContract) (reject : Bool) (captures : Captures) : Prop :=
  ∀ s, c.path = some s → ∀ e ∈ s.fields, ¬Refused (captured captures) reject e

/-- A declared body has members, and no field of it is refused. -/
def BodyTaken (c : RequestContract) (reject : Bool) (body : Value) : Prop :=
  ∀ s, c.body = some s →
    members? body ≠ none ∧ ∀ e ∈ s.fields, ¬Refused (member body) reject e

/-- The path sets the field to the datum. -/
def PathSets (c : RequestContract) (captures : Captures) : String → Datum → Prop :=
  Supplies c.path (captured captures)

/-- The body sets the field to the datum. -/
def BodySets (c : RequestContract) (body : Value) : String → Datum → Prop :=
  Supplies c.body (member body)

/-- How a request comes out, and at which stage. A case holds only where those before it do not. -/
inductive Outcome (c : RequestContract) (reject : Bool) (captures : Captures) (body : Value) :
    Stage → Except ContractError Instance → Prop
  | pathRefused {s : RecordSchema} {e : String × FieldType} {p : Problem} (declared : c.path = some s)
      (first : FirstOf (Refused (captured captures) reject) s.fields e)
      (reported : Reported (captured captures) missingParameter e p)
      (within : Within (fieldPath rootPath e.1) p.path) :
      Outcome c reject captures body .unvalidated (.error (.request p))
  | bodyWithoutMembers {s : RecordSchema} {p : Problem} (path : c.PathTaken reject captures)
      (declared : c.body = some s) (members : members? body = none) (located : p.path = rootPath) :
      Outcome c reject captures body c.pathStage (.error (.request p))
  | bodyRefused {s : RecordSchema} {e : String × FieldType} {p : Problem}
      (path : c.PathTaken reject captures) (declared : c.body = some s)
      (members : members? body ≠ none) (first : FirstOf (Refused (member body) reject) s.fields e)
      (reported : Reported (member body) missingMessage e p)
      (within : Within (fieldPath rootPath e.1) p.path) :
      Outcome c reject captures body c.pathStage (.error (.request p))
  | fieldUnset {f : String} (path : c.PathTaken reject captures) (taken : c.BodyTaken reject body)
      (first : FirstOf (fun f => ∀ d, ¬c.PathSets captures f d ∧ ¬c.BodySets body f d)
        c.schema.fieldNames f) :
      Outcome c reject captures body c.bodyStage (.error (.missingField c.schema.name f))
  | assembled {r : Instance} (path : c.PathTaken reject captures)
      (taken : c.BodyTaken reject body) (schema : r.schema = c.schema)
      (fields : r.values.map (·.1) = c.schema.fieldNames)
      (values : ∀ f ∈ c.schema.fieldNames, ∃ d, r.get? f = some d ∧
        (c.BodySets body f d ∨ (∀ d', ¬c.BodySets body f d') ∧ c.PathSets captures f d)) :
      Outcome c reject captures body .ready (.ok r)

variable {c : RequestContract} {reject : Bool} {captures : Captures} {body : Value}
  {first second : List Instance} {err : ContractError}

theorem pathTaken_of_ok (h : partOf c.path (Extraction.path captures reject) = .ok first) :
    c.PathTaken reject captures := by
  intro s hs
  simp only [partOf, hs, Outcome.map_eq_ok] at h
  obtain ⟨r, hr, -⟩ := h
  exact none_refused_of_record hr

theorem partOf_path_ok (h : c.PathTaken reject captures) :
    ∃ first, partOf c.path (Extraction.path captures reject) = .ok first := by
  unfold partOf
  cases hs : c.path with
  | none => exact ⟨[], rfl⟩
  | some s =>
    obtain ⟨r, hr⟩ := record_of_none_refused (h s hs) missingParameter
    exact ⟨[r], congrArg (Except.map ([·])) hr⟩

theorem bodyTaken_of_ok (h : partOf c.body (Extraction.body body reject) = .ok second) :
    c.BodyTaken reject body := by
  intro s hs
  simp only [partOf, hs, Outcome.map_eq_ok] at h
  obtain ⟨r, hr, -⟩ := h
  obtain ⟨hmembers, hr⟩ := body_eq_ok.mp hr
  exact ⟨hmembers, none_refused_of_record hr⟩

theorem outcome_of_path_error (h : partOf c.path (Extraction.path captures reject) = .error err) :
    c.Outcome reject captures body .unvalidated (.error err) := by
  obtain ⟨s, hs, hx⟩ := partOf_error.mp h
  obtain ⟨e, p, hfirst, rfl, hreported⟩ := first_of_record_error hx
  exact .pathRefused hs hfirst hreported hreported.within

theorem outcome_of_body_error (hp : c.PathTaken reject captures)
    (h : partOf c.body (Extraction.body body reject) = .error err) :
    c.Outcome reject captures body c.pathStage (.error err) := by
  obtain ⟨s, hs, hx⟩ := partOf_error.mp h
  by_cases hm : members? body = none
  · rw [body_of_no_members hm, Except.error.injEq] at hx
    subst hx
    exact .bodyWithoutMembers hp hs hm rfl
  · rw [body_eq hm] at hx
    obtain ⟨e, p, hfirst, rfl, hreported⟩ := first_of_record_error hx
    exact .bodyRefused hp hs hm hfirst hreported hreported.within

theorem overlayValues_partOf {schema : Option RecordSchema} {source : String → Option Value}
    {extract : RecordSchema → Except ContractError Instance}
    (hx : ∀ s r, extract s = .ok r → ∀ f d, r.get? f = some d ↔ Supplies (some s) source f d)
    {rs : List Instance} (h : partOf schema extract = .ok rs) (f : String) (d : Datum) :
    overlayValues rs f = some d ↔ Supplies schema source f d := by
  cases schema with
  | none =>
    cases h
    simp [overlayValues, Supplies]
  | some s =>
    obtain ⟨r, hr, rfl⟩ := Outcome.map_eq_ok.mp h
    rw [← hx s r hr]
    simp [overlayValues]

theorem overlayValues_path (h : partOf c.path (Extraction.path captures reject) = .ok first)
    (f : String) (d : Datum) : overlayValues first f = some d ↔ c.PathSets captures f d :=
  overlayValues_partOf (fun _ _ hr _ _ => record_get hr) h f d

theorem overlayValues_body (h : partOf c.body (Extraction.body body reject) = .ok second)
    (f : String) (d : Datum) : overlayValues second f = some d ↔ c.BodySets body f d :=
  overlayValues_partOf (fun _ _ hr _ _ => record_get (body_eq_ok.mp hr).2) h f d

theorem overlayValues_parts (hfirst : partOf c.path (Extraction.path captures reject) = .ok first)
    (hsecond : partOf c.body (Extraction.body body reject) = .ok second) (f : String) (d : Datum) :
    overlayValues (first ++ second) f = some d ↔
      c.BodySets body f d ∨ (∀ d', ¬c.BodySets body f d') ∧ c.PathSets captures f d := by
  rw [overlayValues_append_list, Option.or_eq_some_iff, overlayValues_body hsecond,
    overlayValues_path hfirst, Option.eq_none_iff_forall_ne_some]
  simp only [ne_eq, overlayValues_body hsecond]

theorem overlayValues_parts_isNone
    (hfirst : partOf c.path (Extraction.path captures reject) = .ok first)
    (hsecond : partOf c.body (Extraction.body body reject) = .ok second) (f : String) :
    (overlayValues (first ++ second) f).isNone = true ↔
      ∀ d, ¬c.PathSets captures f d ∧ ¬c.BodySets body f d := by
  rw [Option.isNone_iff_eq_none, overlayValues_append_list, Option.or_eq_none_iff,
    Option.eq_none_iff_forall_ne_some, Option.eq_none_iff_forall_ne_some, forall_and, and_comm]
  simp only [ne_eq, overlayValues_body hsecond, overlayValues_path hfirst]

theorem outcome_of_parts (hfirst : partOf c.path (Extraction.path captures reject) = .ok first)
    (hsecond : partOf c.body (Extraction.body body reject) = .ok second) :
    (∃ f, combine c.schema (first ++ second) = .error (.missingField c.schema.name f) ∧
      c.Outcome reject captures body c.bodyStage (.error (.missingField c.schema.name f))) ∨
    ∃ r, combine c.schema (first ++ second) = .ok r ∧
      c.Outcome reject captures body .ready (.ok r) := by
  have hp := pathTaken_of_ok hfirst
  have hb := bodyTaken_of_ok hsecond
  rcases FirstOf.none_or_exists (fun f => (overlayValues (first ++ second) f).isNone = true)
    c.schema.fieldNames with hall | ⟨f, hf⟩
  · have hset : ∀ f ∈ c.schema.fieldNames, (overlayValues (first ++ second) f).isSome = true := by
      intro f hf
      exact Option.isSome_iff_ne_none.mpr fun hnone => hall f hf (Option.isNone_iff_eq_none.mpr hnone)
    refine .inr ⟨_, combine_eq_ok.mpr ⟨hset, rfl⟩, ?_⟩
    refine .assembled hp hb rfl (Instance.keys_collect hset) ?_
    intro f hf
    obtain ⟨d, hd⟩ := Option.isSome_iff_exists.mp (hset f hf)
    refine ⟨d, ?_, (overlayValues_parts hfirst hsecond f d).mp hd⟩
    rw [Instance.get_collect_of_mem _ hf, hd]
  · refine .inl ⟨f, combine_of_first hf, ?_⟩
    refine .fieldUnset hp hb ?_
    simpa only [overlayValues_parts_isNone hfirst hsecond] using hf

end RequestContract

open RequestContract in
/-- A run of a new pipeline has the first outcome that applies. -/
theorem Pipeline.run_outcome (operation : String) (c : RequestContract) (policy : Policy)
    (captures : Captures) (body : Value) :
    let run := ((start operation c policy).run captures body).value
    c.Outcome policy.rejectMissingFields captures body run.1.stage run.2 := by
  intro run
  have hrun : (run.1.stage, run.2) = _ :=
    run_stage_value (p := start operation c policy) rfl rfl captures body
  show c.Outcome policy.rejectMissingFields captures body (run.1.stage, run.2).1
    (run.1.stage, run.2).2
  rw [hrun]
  dsimp only [start]
  cases hfirst : partOf c.path (Extraction.path captures policy.rejectMissingFields) with
  | error err => exact outcome_of_path_error hfirst
  | ok first =>
    cases hsecond : partOf c.body (Extraction.body body policy.rejectMissingFields) with
    | error err => exact outcome_of_body_error (pathTaken_of_ok hfirst) hsecond
    | ok second =>
      rcases outcome_of_parts hfirst hsecond with ⟨f, hcombine, h⟩ | ⟨r, hcombine, h⟩
      · dsimp only
        rw [hcombine]
        exact h
      · dsimp only
        rw [hcombine]
        exact h

end Covenant
