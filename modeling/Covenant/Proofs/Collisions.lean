import Covenant.Proofs.Declarations
import Covenant.Proofs.Definitions

namespace Covenant

theorem map_filter_eq_iff {α β : Type} {p q : α → Bool} {l : List α} (f : α → β)
    (h : ∀ x ∈ l, p x = true → q x = true) :
    (l.filter p).map f = (l.filter q).map f ↔ ∀ x ∈ l, q x = true → p x = true := by
  have hp : l.filter p = (l.filter q).filter p := by
    rw [List.filter_filter]
    refine List.filter_congr fun x hx => ?_
    cases hpx : p x with
    | false => rfl
    | true => rw [h x hx hpx]; rfl
  constructor
  · intro heq x hx hqx
    have hlength := congrArg List.length heq
    rw [List.length_map, List.length_map, hp, List.length_filter_eq_length_iff] at hlength
    exact hlength x (List.mem_filter.mpr ⟨hx, hqx⟩)
  · intro hqp
    rw [hp, List.filter_eq_self.mpr]
    intro x hx
    exact hqp x (List.mem_of_mem_filter hx) (List.mem_filter.mp hx).2

namespace Docs

/-- The schemas that take the place of one of their name, each behind the one before it. The first
list are the schemas defined so far, the latest first. -/
def reuses : List RecordSchema → List RecordSchema → List (RecordSchema × RecordSchema)
  | _, [] => []
  | defined, s :: rest =>
    ((defined.find? (·.name = s.name)).map (·, s)).toList ++ reuses (s :: defined) rest

/-- The same fields, in whatever order, with types of the same names in lower case. -/
def looksAlike (t s : RecordSchema) : Bool :=
  (t.fieldNames ++ s.fieldNames).all fun f =>
    (t.fieldType? f).map typeName == (s.fieldType? f).map typeName

variable {s t : RecordSchema} {definitions : List (String × Definition)}

theorem mem_reuses {defined schemas : List RecordSchema} :
    (t, s) ∈ reuses defined schemas ↔ ∃ before after, schemas = before ++ s :: after ∧
      (before.reverse ++ defined).find? (·.name = s.name) = some t := by
  induction schemas generalizing defined with
  | nil => simp [reuses]
  | cons x rest ih =>
    rw [reuses, List.mem_append, ih]
    constructor
    · rintro (h | ⟨before, after, rfl, hfind⟩)
      · simp only [Option.mem_toList, Option.map_eq_some_iff] at h
        obtain ⟨u, hu, he⟩ := h
        cases he
        exact ⟨[], rest, rfl, hu⟩
      · exact ⟨x :: before, after, rfl, by simpa using hfind⟩
    · rintro ⟨before, after, heq, hfind⟩
      cases before with
      | nil =>
        obtain ⟨rfl, rfl⟩ := List.cons.inj heq
        exact .inl (by simpa using hfind)
      | cons y before =>
        obtain ⟨rfl, rfl⟩ := List.cons.inj heq
        exact .inr ⟨before, after, rfl, by simpa using hfind⟩

theorem mem_reuses_nil {schemas : List RecordSchema} :
    (t, s) ∈ reuses [] schemas ↔ ∃ before between after,
      schemas = before ++ t :: (between ++ s :: after) ∧ t.name = s.name ∧
        ∀ u ∈ between, u.name ≠ s.name := by
  rw [mem_reuses]
  simp only [List.append_nil, find?_reverse_eq_some, decide_eq_true_eq, decide_eq_false_iff_not]
  constructor
  · rintro ⟨_, after, rfl, before, between, rfl, hname, hbetween⟩
    exact ⟨before, between, after, by simp, hname, hbetween⟩
  · rintro ⟨before, between, after, rfl, hname, hbetween⟩
    exact ⟨before ++ t :: between, after, by simp, before, between, rfl, hname, hbetween⟩

theorem looksAlike_iff :
    looksAlike t s = true ↔ ∀ f, (t.fieldType? f).map typeName = (s.fieldType? f).map typeName := by
  rw [looksAlike, List.all_eq_true]
  simp only [beq_iff_eq]
  refine ⟨fun h f => ?_, fun h f _ => h f⟩
  by_cases hf : f ∈ t.fieldNames ++ s.fieldNames
  · exact h f hf
  · rw [List.mem_append, not_or] at hf
    rw [RecordSchema.fieldType?, RecordSchema.fieldType?, Entries.lookup_eq_none hf.1,
      Entries.lookup_eq_none hf.2]

theorem sameContent_ofSchema (t s : DeclaredSchema) :
    (Definition.ofSchema t).sameContent (Definition.ofSchema s) = looksAlike t s := by
  have hlookup : ∀ (u : RecordSchema) f,
      (Definition.ofSchema u).properties.lookup f = (u.fieldType? f).map typeName :=
    fun u f => Entries.lookup_map typeName u.fields f
  have honce : ∀ u : DeclaredSchema, ((Definition.ofSchema u).properties.map (·.1)).Nodup := by
    intro u
    rw [keys_ofSchema]
    exact u.once
  rw [Bool.eq_iff_iff, looksAlike_iff, Definition.sameContent, Bool.and_eq_true,
    Entries.sameContent_iff (honce t) (honce s)]
  simp only [hlookup]
  exact and_iff_right BEq.rfl

theorem looksAlike_of_sameShape (h : t.sameShape s = true) : looksAlike t s = true := by
  have hfields : t.fields = s.fields := eq_of_beq h
  rw [looksAlike_iff]
  intro f
  rw [RecordSchema.fieldType?, RecordSchema.fieldType?, hfields]

theorem define_events (definitions : List (String × Definition)) (s : RecordSchema) :
    (define definitions s).events =
      if (definitions.lookup s.name).any (!·.sameContent (Definition.ofSchema s)) = true then
        [.definitionReshaped s.name]
      else [] := by
  unfold define
  cases definitions.lookup s.name with
  | none => rfl
  | some previous =>
    cases h : previous.sameContent (Definition.ofSchema s) <;> simp [h, Recorded.emit]

/-- The definitions are those of the schemas defined so far, of which the latest counts. -/
def Tracks (definitions : List (String × Definition)) (defined : List RecordSchema) : Prop :=
  ∀ name, definitions.lookup name = (defined.find? (·.name = name)).map Definition.ofSchema

theorem tracks_nil : Tracks [] [] := fun _ => rfl

theorem tracks_define {defined : List RecordSchema} (h : Tracks definitions defined)
    (s : RecordSchema) : Tracks (define definitions s).value (s :: defined) := by
  intro name
  rw [define_value, Entries.lookup_put, List.find?_cons, h name]
  by_cases hname : name = s.name
  · simp [hname]
  · simp [hname, Ne.symm hname]

theorem foldlM_define_events {defined : List RecordSchema} (h : Tracks definitions defined)
    (schemas : List RecordSchema) :
    (schemas.foldlM define definitions).events =
      ((reuses defined schemas).filter fun e =>
        !(Definition.ofSchema e.1).sameContent (Definition.ofSchema e.2)).map
          fun e => .definitionReshaped e.2.name := by
  induction schemas generalizing definitions defined with
  | nil => rfl
  | cons s rest ih =>
    rw [List.foldlM_cons, Recorded.events_bind, ih (tracks_define h s), define_events, h,
      reuses, List.filter_append, List.map_append]
    congr 1
    cases defined.find? (·.name = s.name) with
    | none => rfl
    | some t =>
      cases hc : (Definition.ofSchema t).sameContent (Definition.ofSchema s) <;> simp [hc]

/-- Registries whose schemas declarations build. -/
abbrev DeclaredRegistry := {r : Registry // ∀ s ∈ schemasOf r, s.fieldNames.Nodup}

theorem events_ofRegistry (basic : BasicInfo) (r : DeclaredRegistry) :
    (Document.ofRegistry basic r).events =
      ((reuses [] (schemasOf r)).filter fun e => !looksAlike e.1 e.2).map
        fun e => .definitionReshaped e.2.name := by
  have hevents : (Document.ofRegistry basic r).events = (defineAll r.1.operations).events :=
    List.append_nil _
  rw [hevents, defineAll, foldlM_define_events tracks_nil]
  refine congrArg _ (List.filter_congr fun e he => ?_)
  obtain ⟨before, between, after, hschemas, -⟩ := mem_reuses_nil.mp he
  have hmem : e.1 ∈ schemasOf r ∧ e.2 ∈ schemasOf r := by
    unfold schemasOf
    simp [hschemas]
  rw [sameContent_ofSchema ⟨e.1, r.2 _ hmem.1⟩ ⟨e.2, r.2 _ hmem.2⟩]

/-- While a registry is exported, a schema is reported, once and in its turn, just if it takes the
place of one of its name that looks different. These are all that take the place of one of another
shape just if no two of other shapes look alike. -/
theorem reshaping_reported (basic : BasicInfo) (r : DeclaredRegistry) :
    let report := fun e : RecordSchema × RecordSchema => Event.definitionReshaped e.2.name
    let reused := reuses [] (schemasOf r)
    let events := (Document.ofRegistry basic r).events
    (∀ t s, (t, s) ∈ reused ↔ ∃ before between after,
      schemasOf r = before ++ t :: (between ++ s :: after) ∧ t.name = s.name ∧
        ∀ u ∈ between, u.name ≠ s.name) ∧
    events = (reused.filter fun e => !looksAlike e.1 e.2).map report ∧
    (∀ t s, looksAlike t s = true ↔
      ∀ f, (t.fieldType? f).map typeName = (s.fieldType? f).map typeName) ∧
    (events = (reused.filter fun e => !e.1.sameShape e.2).map report ↔
      ∀ e ∈ reused, looksAlike e.1 e.2 = true → e.1.sameShape e.2 = true) := by
  intro report reused events
  have hevents : events = (reused.filter fun e => !looksAlike e.1 e.2).map report :=
    events_ofRegistry basic r
  refine ⟨fun _ _ => mem_reuses_nil, hevents, fun _ _ => looksAlike_iff, ?_⟩
  rw [hevents, map_filter_eq_iff]
  · simp only [Bool.not_eq_true', ← Bool.not_eq_true, not_imp_not]
  · simp only [Bool.not_eq_true', ← Bool.not_eq_true, not_imp_not]
    exact fun _ _ => looksAlike_of_sameShape

end Docs

namespace Sample

def page (item : FieldType) : RecordSchema := .ofDeclarations "Page" none [("items", item)]

def listing (id template : String) (item : FieldType) : Operation :=
  ⟨id, get, template, ⟨.make [] noInput none none, [(.success, .make (page item) none)]⟩⟩

end Sample

namespace Docs

open Sample (listing)

/-- A page holds a list, then one integer, and then an integer again: the second is reported. -/
theorem page_reshaped_reported :
    let r : Registry := ⟨[listing "all" "/all" (.list .integer), listing "one" "/one" .integer,
      listing "first" "/first" .integer]⟩
    (∀ s ∈ schemasOf r, s.fieldNames.Nodup) ∧
      (Document.ofRegistry ⟨"localhost", "Pages", "1", [], "/"⟩ r).events =
        [.definitionReshaped "Page"] := by
  intro r
  have hf : ∀ s ∈ schemasOf r, s.fieldNames.Nodup := by decide +kernel
  refine ⟨hf, ?_⟩
  rw [(reshaping_reported ⟨"localhost", "Pages", "1", [], "/"⟩ ⟨r, hf⟩).2.1]
  dsimp only
  decide +kernel

/-- A page of integers and a page of texts have different shapes, and nothing is reported. -/
theorem reshaped_list_not_reported :
    let r : Registry := ⟨[listing "numbers" "/numbers" (.list .integer),
      listing "names" "/names" (.list .text)]⟩
    let reused := reuses [] (schemasOf r)
    reused = [(Sample.page (.list .integer), Sample.page (.list .text))] ∧
      (reused.filter fun e => !e.1.sameShape e.2).map (fun e => e.2.name) = ["Page"] ∧
      (Document.ofRegistry ⟨"localhost", "Pages", "1", [], "/"⟩ r).events = [] := by
  decide +kernel

end Docs

end Covenant
