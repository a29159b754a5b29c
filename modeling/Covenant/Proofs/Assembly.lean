import Covenant.Exchange.Pipeline
import Covenant.Proofs.Extraction
import Mathlib.Data.List.Induction

namespace Covenant

namespace Instance

theorem get_collect (s : RecordSchema) (source : String → Option Datum) (f : String) :
    (collect s source).get? f = if s.declares f then source f else none := by
  have h : ∀ names : List String,
      (names.filterMap fun g => (source g).map (g, ·)).lookup f =
        if f ∈ names then source f else none := by
    intro names
    induction names with
    | nil => rfl
    | cons g rest ih =>
      by_cases hf : f = g
      · subst hf
        cases hs : source f with
        | none => simp [hs, ih]
        | some d => simp [hs]
      · have hb : (f == g) = false := beq_eq_false_iff_ne.mpr hf
        cases hs : source g with
        | none => simp [hs, ih, hf]
        | some d => simp [hs, ih, hf, hb, List.lookup_cons]
  simp only [collect, get?, h, RecordSchema.declares_iff]

theorem get_collect_of_mem {s : RecordSchema} (source : String → Option Datum) {f : String}
    (h : f ∈ s.fieldNames) : (collect s source).get? f = source f := by
  rw [get_collect, if_pos (RecordSchema.declares_iff.mpr h)]

theorem collect_fits {s : RecordSchema} {source : String → Option Datum}
    (h : ∀ f t, (f, t) ∈ s.fields → ∃ d, source f = some d ∧ t.Fits d) :
    s.Fits (collect s source) := by
  obtain ⟨name, description, fields⟩ := s
  refine ⟨rfl, ?_⟩
  dsimp only [collect, RecordSchema.fieldNames] at h ⊢
  induction fields with
  | nil => trivial
  | cons e rest ih =>
    obtain ⟨f, t⟩ := e
    obtain ⟨d, hd, hfit⟩ := h f t List.mem_cons_self
    rw [List.map_cons, List.filterMap_cons_some (by rw [hd]; rfl)]
    exact ⟨rfl, hfit, ih fun g u hg => h g u (List.mem_cons_of_mem _ hg)⟩

theorem missing_collect (s : RecordSchema) (source : String → Option Datum) :
    (collect s source).missing = s.fieldNames.filter fun f => (source f).isNone := by
  rw [missing]
  apply List.filter_congr
  intro f hf
  have hget : (collect s source).get? f = source f := get_collect_of_mem source hf
  simp [isSet, hget]

theorem mem_missing_collect {s : RecordSchema} {source : String → Option Datum} {f : String} :
    f ∈ (collect s source).missing ↔ f ∈ s.fieldNames ∧ source f = none := by
  rw [missing_collect, List.mem_filter, Option.isNone_iff_eq_none]

theorem keys_collect {s : RecordSchema} {source : String → Option Datum}
    (h : ∀ f ∈ s.fieldNames, (source f).isSome = true) :
    (collect s source).values.map (·.1) = s.fieldNames := by
  unfold collect
  dsimp only
  generalize s.fieldNames = names at h ⊢
  induction names with
  | nil => rfl
  | cons f rest ih =>
    obtain ⟨hf, hrest⟩ := List.forall_mem_cons.mp h
    obtain ⟨d, hd⟩ := Option.isSome_iff_exists.mp hf
    rw [List.filterMap_cons_some (by rw [hd]; rfl), List.map_cons, ih hrest]

theorem finish_ok {r q : Instance} : r.finish = .ok q ↔ r.missing = [] ∧ r = q := by
  unfold finish
  cases r.missing <;> simp

theorem finish_error {r : Instance} {e : ContractError} (h : r.finish = .error e) :
    ∃ f ∈ r.missing, e = .missingField r.schema.name f := by
  unfold finish at h
  split at h
  · cases h
  · next f rest hm =>
    cases h
    refine ⟨f, ?_, rfl⟩
    rw [hm]
    exact List.mem_cons_self

end Instance

theorem overlayValues_append (sources : List Instance) (r : Instance) (f : String) :
    overlayValues (sources ++ [r]) f = (r.get? f).or (overlayValues sources f) := by
  simp [overlayValues]

theorem exists_of_overlayValues {sources : List Instance} {f : String} {d : Datum}
    (h : overlayValues sources f = some d) : ∃ r ∈ sources, r.get? f = some d := by
  induction sources using List.reverseRecOn with
  | nil => simp [overlayValues] at h
  | append_singleton sources r ih =>
    rw [overlayValues_append, Option.or_eq_some_iff] at h
    rcases h with hr | ⟨-, h⟩
    · exact ⟨r, by simp, hr⟩
    · obtain ⟨q, hq, hd⟩ := ih h
      exact ⟨q, List.mem_append_left _ hq, hd⟩

theorem overlayValues_isSome {sources : List Instance} {r : Instance} (hr : r ∈ sources)
    {f : String} (hf : r.isSet f = true) : (overlayValues sources f).isSome = true := by
  induction sources using List.reverseRecOn with
  | nil => simp at hr
  | append_singleton sources q ih =>
    rw [overlayValues_append, Option.isSome_or, Bool.or_eq_true]
    rw [List.mem_append, List.mem_singleton] at hr
    rcases hr with hr | rfl
    · exact .inr (ih hr)
    · exact .inl hf

theorem combine_eq_ok {s : RecordSchema} {sources : List Instance} {r : Instance} :
    combine s sources = .ok r ↔ (∀ f ∈ s.fieldNames, (overlayValues sources f).isSome = true) ∧
      Instance.collect s (overlayValues sources) = r := by
  rw [combine, Instance.finish_ok, List.eq_nil_iff_forall_not_mem]
  simp only [Instance.mem_missing_collect, not_and, ← ne_eq, Option.isSome_iff_ne_none]

theorem combine_sets {s : RecordSchema} {sources : List Instance} {r : Instance}
    (h : combine s sources = .ok r) {f : String} (hf : f ∈ s.fieldNames) :
    ∃ q ∈ sources, ∃ d, q.get? f = some d := by
  obtain ⟨d, hd⟩ := Option.isSome_iff_exists.mp ((combine_eq_ok.mp h).1 f hf)
  obtain ⟨q, hq, hqd⟩ := exists_of_overlayValues hd
  exact ⟨q, hq, d, hqd⟩

theorem combine_fits {s : RecordSchema} {sources : List Instance} {r : Instance}
    (h : combine s sources = .ok r)
    (hfit : ∀ f t, (f, t) ∈ s.fields → ∀ q ∈ sources, ∀ d, q.get? f = some d → t.Fits d) :
    s.Fits r := by
  obtain ⟨hset, rfl⟩ := combine_eq_ok.mp h
  apply Instance.collect_fits
  intro f t hf
  obtain ⟨d, hd⟩ := Option.isSome_iff_exists.mp (hset f (List.mem_map_of_mem hf))
  obtain ⟨q, hq, hqd⟩ := exists_of_overlayValues hd
  exact ⟨d, hd, hfit f t hf q hq d hqd⟩

theorem combine_error {s : RecordSchema} {sources : List Instance} {e : ContractError}
    (h : combine s sources = .error e) :
    ∃ f ∈ s.fieldNames, overlayValues sources f = none ∧ e = .missingField s.name f := by
  obtain ⟨f, hf, he⟩ := Instance.finish_error h
  obtain ⟨hs, hd⟩ := Instance.mem_missing_collect.mp hf
  exact ⟨f, hs, hd, he⟩

namespace RequestContract

variable {c : RequestContract}

theorem sharedFault_eq_none : c.sharedFault? = none ↔ ∀ path body, c.path = some path →
    c.body = some body → ∀ f ∈ body.fieldNames, path.declares f = false := by
  cases hp : c.path <;> cases hb : c.body <;>
    simp [sharedFault?, hp, hb, ← Option.eq_none_iff_forall_ne_some]

theorem fieldFault_eq_none {f : String} {t : FieldType} :
    c.fieldFault? f t = none ↔ ∃ part, c.supplier? f = some (part, t) := by
  unfold fieldFault?
  cases h : c.supplier? f with
  | none => simp
  | some found =>
    obtain ⟨part, u⟩ := found
    by_cases hu : u = t <;> simp [hu]

theorem supplier_eq_some {f : String} {part : RecordSchema} {t : FieldType}
    (h : c.supplier? f = some (part, t)) : part ∈ c.parts ∧ part.fieldType? f = some t := by
  obtain ⟨p, hp, hf⟩ := List.exists_of_findSome?_eq_some h
  rw [Option.map_eq_some_iff] at hf
  obtain ⟨u, hu, he⟩ := hf
  cases he
  exact ⟨hp, hu⟩

theorem exclusive (h : c.sharedFault? = none) {p q : RecordSchema} (hp : p ∈ c.parts)
    (hq : q ∈ c.parts) {f : String} (hpf : p.declares f = true) (hqf : q.declares f = true) :
    p = q := by
  have hshared := sharedFault_eq_none.mp h
  simp only [parts, List.mem_append, Option.mem_toList] at hp hq
  -- one is the path's and the other the body's only if they share the field
  rcases hp with hp | hp <;> rcases hq with hq | hq
  · exact Option.some.inj (hp.symm.trans hq)
  · have hno := hshared p q hp hq f (RecordSchema.declares_iff.mp hqf)
    simp [hno] at hpf
  · have hno := hshared q p hq hp f (RecordSchema.declares_iff.mp hpf)
    simp [hno] at hqf
  · exact Option.some.inj (hp.symm.trans hq)

theorem part_type (h : c.check = .ok ()) {f : String} {t u : FieldType}
    (hf : (f, t) ∈ c.schema.fields) {part : RecordSchema} (hp : part ∈ c.parts)
    (hu : part.fieldType? f = some u) : u = t := by
  rw [check_eq_ok, fault?, Option.or_eq_none_iff, List.findSome?_eq_none_iff] at h
  obtain ⟨hshared, hfields⟩ := h
  obtain ⟨q, hq⟩ := fieldFault_eq_none.mp (hfields (f, t) hf)
  obtain ⟨hqp, hqt⟩ := supplier_eq_some hq
  have hpf := RecordSchema.declares_of_fieldType hu
  have hqf := RecordSchema.declares_of_fieldType hqt
  rw [exclusive hshared hp hqp hpf hqf, hqt] at hu
  exact (Option.some.inj hu).symm

def partOf (schema : Option RecordSchema)
    (extract : RecordSchema → Except ContractError Instance) :
    Except ContractError (List Instance) :=
  match schema with
  | none => .ok []
  | some s => (extract s).map ([·])

/-- The request instance, without the stages in which the pipeline makes it. -/
def assemble (c : RequestContract) (reject : Bool) (captures : Captures) (body : Json.Value) :
    Except ContractError Instance := do
  let first ← partOf c.path (Extraction.path captures reject)
  let second ← partOf c.body (Extraction.body body reject)
  combine c.schema (first ++ second)

variable {schema : Option RecordSchema} {extract : RecordSchema → Except ContractError Instance}

theorem partOf_ok {rs : List Instance} (h : partOf schema extract = .ok rs) {r : Instance} :
    r ∈ rs ↔ ∃ s, schema = some s ∧ extract s = .ok r := by
  unfold partOf at h
  cases schema with
  | none =>
    cases h
    simp
  | some s =>
    simp only [Outcome.map_eq_ok] at h
    obtain ⟨q, hq, rfl⟩ := h
    simp [hq, eq_comm]

theorem partOf_error {e : ContractError} :
    partOf schema extract = .error e ↔ ∃ s, schema = some s ∧ extract s = .error e := by
  cases schema <;> simp [partOf, Outcome.map_eq_error]

theorem exists_isSet_of_partOf {part : RecordSchema} {f : String}
    (hx : ∀ {r}, extract part = .ok r → r.isSet f = true) {rs : List Instance}
    (h : partOf schema extract = .ok rs) (hs : schema = some part) : ∃ r ∈ rs, r.isSet f = true := by
  subst hs
  obtain ⟨r, hr, rfl⟩ := Outcome.map_eq_ok.mp h
  exact ⟨r, List.mem_singleton_self r, hx hr⟩

variable {reject : Bool} {captures : Captures} {body : Json.Value}

theorem partOf_partial {first second : List Instance}
    (hfirst : partOf c.path (Extraction.path captures reject) = .ok first)
    (hsecond : partOf c.body (Extraction.body body reject) = .ok second) {q : Instance}
    (hq : q ∈ first ++ second) : ∃ part ∈ c.parts, Extraction.Partial part q := by
  rcases List.mem_append.mp hq with hq | hq
  · obtain ⟨s, hs, hx⟩ := (partOf_ok hfirst).mp hq
    exact ⟨s, by simp [parts, hs], Extraction.path_partial hx⟩
  · obtain ⟨s, hs, hx⟩ := (partOf_ok hsecond).mp hq
    exact ⟨s, by simp [parts, hs], Extraction.body_partial hx⟩

theorem assemble_eq_ok {r : Instance} :
    c.assemble reject captures body = .ok r ↔
      ∃ first second, partOf c.path (Extraction.path captures reject) = .ok first ∧
        partOf c.body (Extraction.body body reject) = .ok second ∧
        combine c.schema (first ++ second) = .ok r := by
  simp only [assemble, Outcome.bind_eq_ok, exists_and_left]

theorem assemble_eq_error {e : ContractError} :
    c.assemble reject captures body = .error e ↔
      partOf c.path (Extraction.path captures reject) = .error e ∨
      ∃ first, partOf c.path (Extraction.path captures reject) = .ok first ∧
        (partOf c.body (Extraction.body body reject) = .error e ∨
        ∃ second, partOf c.body (Extraction.body body reject) = .ok second ∧
          combine c.schema (first ++ second) = .error e) := by
  simp only [assemble, Outcome.bind_eq_error]

theorem assemble_fits (hc : c.check = .ok ()) {r : Instance}
    (h : c.assemble reject captures body = .ok r) : c.schema.Fits r := by
  obtain ⟨first, second, hfirst, hsecond, h⟩ := assemble_eq_ok.mp h
  apply combine_fits h
  intro f t hf q hq d hd
  obtain ⟨part, hp, -, hfit⟩ := partOf_partial hfirst hsecond hq
  obtain ⟨u, hu, hd⟩ := hfit f d hd
  rw [← part_type hc hf hp hu]
  exact hd

/-- Where the path captures all fields of its part, it is either a value that is at fault or a field
that only the body could have supplied. -/
theorem assemble_error
    (hcap : ∀ part, c.path = some part → ∀ f ∈ part.fieldNames, (captures.lookup f).isSome = true)
    {e : ContractError} (h : c.assemble reject captures body = .error e) :
    (∃ p, e = .request p ∧ p.message ≠ Extraction.missingParameter) ∨
    ∃ f ∈ c.schema.fieldNames, e = .missingField c.schema.name f ∧
      ∀ part, c.path = some part → f ∉ part.fieldNames := by
  rcases assemble_eq_error.mp h with h | ⟨first, hfirst, h | ⟨second, -, h⟩⟩
  · obtain ⟨s, hs, hx⟩ := partOf_error.mp h
    exact .inl (Extraction.path_error hx (hcap s hs))
  · obtain ⟨s, -, hx⟩ := partOf_error.mp h
    exact .inl (Extraction.body_error hx)
  · obtain ⟨f, hf, hnone, he⟩ := combine_error h
    refine .inr ⟨f, hf, he, ?_⟩
    intro part hp hfp
    -- the path's instance was made, so it sets all fields of its part
    obtain ⟨r, hr, hset⟩ := exists_isSet_of_partOf
      (fun hx => Extraction.path_isSet hx hfp (hcap part hp f hfp)) hfirst hp
    have hsome := overlayValues_isSome (List.mem_append_left second hr) hset
    simp [hnone] at hsome

end RequestContract

namespace RequestContract

def pathStage (c : RequestContract) : Stage :=
  if c.path.isSome then .pathValidated else .unvalidated

def bodyStage (c : RequestContract) : Stage :=
  if c.body.isSome then .bodyValidated else c.pathStage

end RequestContract

namespace Pipeline

theorem readPart_value (p : Pipeline) (schema : Option RecordSchema)
    (extract : RecordSchema → Except ContractError Instance) (target : Stage) :
    (p.readPart schema extract target).value =
      match RequestContract.partOf schema extract with
      | .error e => (p, .error e)
      | .ok rs =>
        ({ p with stage := if schema.isSome then target else p.stage, parts := p.parts ++ rs },
          .ok ()) := by
  unfold readPart RequestContract.partOf
  cases schema with
  | none =>
    dsimp only
    rw [List.append_nil]
    rfl
  | some s =>
    dsimp only
    cases extract s with
    | error e => rfl
    | ok part => rfl

theorem finish_value (p : Pipeline) :
    (p.finish.value.1.stage, p.finish.value.2) =
      match combine p.contract.schema p.parts with
      | .error e => (p.stage, .error e)
      | .ok r => (.ready, .ok r) := by
  unfold finish
  cases combine p.contract.schema p.parts with
  | error e => rfl
  | ok r => rfl

/-- A pipeline that starts comes to the stage before the first failure. -/
theorem run_stage_value {p : Pipeline} (hs : p.stage = .unvalidated) (hp : p.parts = [])
    (captures : Captures) (body : Json.Value) :
    ((p.run captures body).value.1.stage, (p.run captures body).value.2) =
      match RequestContract.partOf p.contract.path
          (Extraction.path captures p.rejectMissingFields) with
      | .error e => (.unvalidated, .error e)
      | .ok first =>
        match RequestContract.partOf p.contract.body
            (Extraction.body body p.rejectMissingFields) with
        | .error e => (p.contract.pathStage, .error e)
        | .ok second =>
          match combine p.contract.schema (first ++ second) with
          | .error e => (p.contract.bodyStage, .error e)
          | .ok r => (.ready, .ok r) := by
  unfold run
  rw [if_neg (not_not.mpr hs), Recorded.value_bind, readPart_value]
  cases RequestContract.partOf p.contract.path (Extraction.path captures p.rejectMissingFields) with
  | error e =>
    dsimp only
    rw [Recorded.value_pure, hs]
  | ok first =>
    dsimp only
    rw [Recorded.value_bind, readPart_value, hs, hp, List.nil_append]
    cases RequestContract.partOf p.contract.body
        (Extraction.body body p.rejectMissingFields) with
    | error e => rfl
    | ok second =>
      dsimp only
      rw [finish_value]
      rfl

theorem run_value {p : Pipeline} (hs : p.stage = .unvalidated) (hp : p.parts = [])
    (captures : Captures) (body : Json.Value) :
    (p.run captures body).value.2 =
      p.contract.assemble p.rejectMissingFields captures body := by
  have hrun := congrArg Prod.snd (run_stage_value hs hp captures body)
  dsimp only at hrun
  rw [hrun, RequestContract.assemble]
  cases RequestContract.partOf p.contract.path (Extraction.path captures p.rejectMissingFields) with
  | error e => rfl
  | ok first =>
    rw [Outcome.ok_bind]
    cases RequestContract.partOf p.contract.body
        (Extraction.body body p.rejectMissingFields) with
    | error e => rfl
    | ok second =>
      rw [Outcome.ok_bind]
      dsimp only
      cases combine p.contract.schema (first ++ second) with
      | error e => rfl
      | ok r => rfl

end Pipeline

end Covenant
