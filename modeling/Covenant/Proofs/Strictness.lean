import Covenant.Proofs.Coverage
import Covenant.Proofs.FirstDefect
import Covenant.Sample.Users

namespace Covenant

open Json Validation

namespace Extraction

/-- Of the fields that a strict reading of the part refuses, the first is one without a value. -/
def AbsentFirst (part : Option RecordSchema) (source : String → Option Value) (f : String) : Prop :=
  ∃ s t, part = some s ∧ FirstOf (Refused source true) s.fields (f, t) ∧ source f = none

variable {source : String → Option Value} {absence : String}

theorem fields_strict (source : String → Option Value) (absence : String)
    (fs : List (String × FieldType)) :
    fields source true absence fs = fields source false absence fs ∨
      ∃ e, FirstOf (Refused source true) fs e ∧ source e.1 = none := by
  induction fs with
  | nil => exact .inl rfl
  | cons e rest ih =>
    cases hs : source e.1 with
    | none => exact .inr ⟨e, .head ((refused_of_none hs).mpr rfl), hs⟩
    | some v =>
      cases hv : validateAt (fieldPath rootPath e.1) e.2 v with
      | error p => exact .inl (by simp only [fields, hs, hv])
      | ok d =>
        rcases ih with heq | ⟨e', hfirst, hnone⟩
        · exact .inl (by simp only [fields, hs, hv, heq])
        · refine .inr ⟨e', .tail ?_ hfirst, hnone⟩
          rw [refused_of_some hs, not_not]
          exact (FieldType.accepts_iff _).mpr ⟨d, hv⟩

theorem record_strict (s : RecordSchema) (source : String → Option Value) (absence : String) :
    record s source true absence = record s source false absence ∨
      ∃ f, AbsentFirst (some s) source f := by
  rcases fields_strict source absence s.fields with heq | ⟨e, hfirst, hnone⟩
  · exact .inl (by rw [record, heq, record])
  · exact .inr ⟨e.1, s, e.2, rfl, hfirst, hnone⟩

namespace AbsentFirst

variable {part : Option RecordSchema} {f : String}

theorem declared (h : AbsentFirst part source f) : ∃ s, part = some s ∧ f ∈ s.fieldNames := by
  obtain ⟨s, t, hs, hfirst, -⟩ := h
  exact ⟨s, hs, List.mem_map_of_mem hfirst.mem⟩

theorem not_supplies (h : AbsentFirst part source f) (d : Datum) : ¬Supplies part source f d := by
  rintro ⟨_, _, v, -, -, hv, -⟩
  obtain ⟨-, -, -, -, hnone⟩ := h
  simp [hnone] at hv

theorem record_eq {s : RecordSchema} (h : AbsentFirst (some s) source f) (absence : String) :
    record s source true absence = .error (.request ⟨fieldPath rootPath f, absence⟩) := by
  obtain ⟨_, t, ⟨rfl⟩, hfirst, hnone⟩ := h
  obtain ⟨p, hp, hreported⟩ := record_of_first hfirst absence
  simp only [Reported, hnone] at hreported
  rw [hp, hreported]

theorem partOf_eq {extract : RecordSchema → Except ContractError Instance}
    (hx : ∀ s, extract s = record s source true absence) (h : AbsentFirst part source f) :
    RequestContract.partOf part extract = .error (.request ⟨fieldPath rootPath f, absence⟩) := by
  obtain ⟨s, t, rfl, hfirst⟩ := h
  have hrecord := AbsentFirst.record_eq ⟨s, t, rfl, hfirst⟩ absence
  exact RequestContract.partOf_error.mpr ⟨s, rfl, (hx s).trans hrecord⟩

end AbsentFirst

end Extraction

open Extraction

namespace RequestContract

variable {c : RequestContract} {captures : Captures} {body : Value}

/-- A strict run stops at a field that is absent from the captures or from the body, with what it
reports. -/
inductive StopsAtAbsent (c : RequestContract) (captures : Captures) (body : Value) : Problem → Prop
  | path {f : String} (first : AbsentFirst c.path (captured captures) f) :
      StopsAtAbsent c captures body ⟨fieldPath rootPath f, missingParameter⟩
  | body {f : String} (path : c.PathTaken true captures) (members : members? body ≠ none)
      (first : AbsentFirst c.body (member body) f) :
      StopsAtAbsent c captures body ⟨fieldPath rootPath f, missingMessage⟩

theorem partOf_path_strict (c : RequestContract) (captures : Captures) :
    partOf c.path (Extraction.path captures true) = partOf c.path (Extraction.path captures false) ∨
      ∃ f, AbsentFirst c.path (captured captures) f := by
  cases c.path with
  | none => exact .inl rfl
  | some s =>
    exact (record_strict s (captured captures) missingParameter).imp_left
      (congrArg (Except.map ([·])))

theorem partOf_body_strict (c : RequestContract) (body : Value) :
    partOf c.body (Extraction.body body true) = partOf c.body (Extraction.body body false) ∨
      members? body ≠ none ∧ ∃ f, AbsentFirst c.body (member body) f := by
  cases c.body with
  | none => exact .inl rfl
  | some s =>
    by_cases hm : members? body = none
    · exact .inl (by simp only [partOf, body_of_no_members hm])
    · simp only [partOf, body_eq hm]
      exact (record_strict s (member body) missingMessage).imp
        (congrArg (Except.map ([·]))) (⟨hm, ·⟩)

theorem assemble_strict (c : RequestContract) (captures : Captures) (body : Value) :
    c.assemble true captures body = c.assemble false captures body ∨
      ∃ p, c.StopsAtAbsent captures body p := by
  rcases partOf_path_strict c captures with hpath | ⟨f, hf⟩
  · cases hfirst : partOf c.path (Extraction.path captures true) with
    | error e =>
      left
      rw [assemble, assemble, ← hpath, hfirst]
      rfl
    | ok first =>
      rcases partOf_body_strict c body with hbody | ⟨hm, f, hf⟩
      · exact .inl (by rw [assemble, assemble, hpath, hbody])
      · exact .inr ⟨_, .body (pathTaken_of_ok hfirst) hm hf⟩
  · exact .inr ⟨_, .path hf⟩

theorem assemble_of_stopsAtAbsent {p : Problem} (h : c.StopsAtAbsent captures body p) :
    c.assemble true captures body = .error (.request p) := by
  cases h with
  | path hfirst =>
    rw [assemble, hfirst.partOf_eq (path_eq captures true)]
    rfl
  | body hpath hm hfirst =>
    obtain ⟨first, hok⟩ := partOf_path_ok hpath
    rw [assemble, hok, Outcome.ok_bind, hfirst.partOf_eq (body_eq hm true)]
    rfl

/-- Where the parts share no field, what one lacks the other does not supply. -/
theorem unset_of_stopsAtAbsent (hc : c.Disjoint) {p : Problem}
    (h : c.StopsAtAbsent captures body p) :
    ∃ part ∈ c.parts, ∃ f ∈ part.fieldNames,
      ∀ d, ¬c.PathSets captures f d ∧ ¬c.BodySets body f d := by
  cases h with
  | @path f hfirst =>
    obtain ⟨s, hs, hf⟩ := hfirst.declared
    refine ⟨s, by simp [parts, hs], f, hf, ?_⟩
    intro d
    refine ⟨hfirst.not_supplies d, ?_⟩
    intro hsets
    obtain ⟨q, hq, hqf⟩ := hsets.declared
    exact hc s q hs hq f hqf hf
  | @body f _ _ hfirst =>
    obtain ⟨s, hs, hf⟩ := hfirst.declared
    refine ⟨s, by simp [parts, hs], f, hf, ?_⟩
    intro d
    refine ⟨?_, hfirst.not_supplies d⟩
    intro hsets
    obtain ⟨q, hq, hqf⟩ := hsets.declared
    exact hc q s hq hs f hf hqf

theorem assemble_sets {reject : Bool} {r : Instance}
    (h : c.assemble reject captures body = .ok r) {f : String} (hf : f ∈ c.schema.fieldNames) :
    ∃ d, c.PathSets captures f d ∨ c.BodySets body f d := by
  obtain ⟨first, second, hfirst, hsecond, hcombine⟩ := assemble_eq_ok.mp h
  obtain ⟨d, hd⟩ := Option.isSome_iff_exists.mp ((combine_eq_ok.mp hcombine).1 f hf)
  rcases (overlayValues_parts hfirst hsecond f d).mp hd with hb | ⟨-, hp⟩
  · exact ⟨d, .inr hb⟩
  · exact ⟨d, .inl hp⟩

theorem assemble_tolerant (hc : c.check = .ok ())
    (hparts : ∀ part ∈ c.parts, ∀ f ∈ part.fieldNames, f ∈ c.schema.fieldNames) {r : Instance}
    (h : c.assemble false captures body = .ok r) : c.assemble true captures body = .ok r := by
  rcases assemble_strict c captures body with heq | ⟨p, hp⟩
  · rw [heq, h]
  · obtain ⟨part, hpart, f, hf, hunset⟩ := unset_of_stopsAtAbsent (check_iff.mp hc).1 hp
    obtain ⟨d, hd⟩ := assemble_sets h (hparts part hpart f hf)
    rcases hd with hd | hd
    · exact absurd hd (hunset d).1
    · exact absurd hd (hunset d).2

end RequestContract

/-- What a tolerant run makes of a request that a strict run takes, it makes too; and the strict run
fails as the tolerant one does unless it stops at a field that is absent. Where the contract was
checked and its parts declare fields of the request only, both succeed on the same requests. -/
theorem Pipeline.strict_agrees_with_tolerant (operation : String) (c : RequestContract)
    (policy : Policy) (captures : Captures) (body : Value) :
    let run := fun reject =>
      ((start operation c { policy with rejectMissingFields := reject }).run captures body).value.2
    (∀ r, run true = .ok r → run false = .ok r) ∧
    (∀ e, run true = .error e → (¬∃ p, c.StopsAtAbsent captures body p) → run false = .error e) ∧
    (∀ p, c.StopsAtAbsent captures body p → run true = .error (.request p)) ∧
    (c.check = .ok () →
      (∀ part ∈ c.parts, ∀ f ∈ part.fieldNames, f ∈ c.schema.fieldNames) →
      ∀ r, run true = .ok r ↔ run false = .ok r) := by
  intro run
  have hrun : ∀ reject, run reject = c.assemble reject captures body :=
    fun reject => run_value rfl rfl captures body
  have hstrict : ∀ r, run true = .ok r → run false = .ok r := by
    intro r h
    rw [hrun] at h ⊢
    rcases RequestContract.assemble_strict c captures body with heq | ⟨p, hp⟩
    · rw [← heq, h]
    · rw [RequestContract.assemble_of_stopsAtAbsent hp] at h
      cases h
  refine ⟨hstrict, ?_, ?_, ?_⟩
  · intro e h hnone
    rw [hrun] at h ⊢
    rcases RequestContract.assemble_strict c captures body with heq | hp
    · rw [← heq, h]
    · exact absurd hp hnone
  · intro p hp
    rw [hrun]
    exact RequestContract.assemble_of_stopsAtAbsent hp
  · intro hc hparts r
    refine ⟨hstrict r, ?_⟩
    intro h
    rw [hrun] at h ⊢
    exact RequestContract.assemble_tolerant hc hparts h

/-- An update of a user without its number is refused at once where absence is rejected; one with
all fields is taken alike. -/
theorem Pipeline.user_update_strict :
    let run := fun reject captures body =>
      ((start "updateUser" Sample.updateUser.request { Policy.default with
        rejectMissingFields := reject }).run captures body).value.2
    let body : Value := .object [("name", .string "Ada"), ("email", .string "ada@host")]
    let user : Instance := ⟨Sample.changedUser,
      [("id", .integer 7), ("name", .text "Ada"), ("email", .text "ada@host")]⟩
    run true [] body = .error (.request ⟨"$.id", missingParameter⟩) ∧
    run true [("id", "7")] body = .ok user ∧ run false [("id", "7")] body = .ok user := by
  intro run body user
  have hagree := strict_agrees_with_tolerant "updateUser" Sample.updateUser.request Policy.default
  constructor
  · obtain ⟨-, -, hstops, -⟩ := hagree [] body
    exact hstops _ (.path ⟨Sample.userId, .integer, rfl, .head ((refused_of_none rfl).mpr rfl), rfl⟩)
  · have hstrict : run true [("id", "7")] body = .ok user := rfl
    obtain ⟨-, -, -, hboth⟩ := hagree [("id", "7")] body
    exact ⟨hstrict, (hboth (by decide) (by decide) user).mp hstrict⟩

end Covenant
