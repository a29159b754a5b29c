import Covenant.Builder
import Covenant.Proofs.Fixpoint

namespace Covenant

namespace Builder

variable {b : Builder} {f : String} {d : Datum}

theorem isSet_eq (b : Builder) (f : String) : b.isSet f = (b.get? f).isSome := by
  rw [Bool.eq_iff_iff, get?, Entries.lookup_isSome]
  simp [isSet]

theorem declared_of_get (h : b.get? f = some d) : f ∈ b.schema.fieldNames :=
  b.declared f (Entries.lookup_isSome.mp (Option.isSome_of_eq_some h))

theorem toInstance_eq (b : Builder) : b.toInstance = .collect b.schema b.get? := rfl

/-- The instance holds what the builder holds: no value is kept for a field that the schema lacks. -/
theorem get_toInstance (b : Builder) (f : String) : b.toInstance.get? f = b.get? f := by
  rw [toInstance_eq, Instance.get_collect]
  split
  · rfl
  · next h =>
    rw [RecordSchema.declares_iff] at h
    exact (Option.eq_none_iff_forall_ne_some.mpr fun d hd => h (declared_of_get hd)).symm

theorem mem_entries : (f, d) ∈ b.entries ↔ b.get? f = some d := by
  simp only [entries, List.mem_filterMap, Option.map_eq_some_iff, Prod.mk.injEq]
  constructor
  · rintro ⟨_, -, _, hd, rfl, rfl⟩
    exact hd
  · intro h
    exact ⟨f, declared_of_get h, d, h, rfl, rfl⟩

theorem keys_entries (b : Builder) : b.entries.map (·.1) = b.schema.fieldNames.filter b.isSet := by
  unfold entries
  induction b.schema.fieldNames with
  | nil => rfl
  | cons f rest ih =>
    cases hf : b.get? f <;> simp [hf, ih, isSet_eq]

theorem nodup_entries (hn : b.schema.fieldNames.Nodup) : (b.entries.map (·.1)).Nodup := by
  rw [keys_entries]
  exact hn.filter _

theorem entries_perm (hn : b.schema.fieldNames.Nodup) : b.entries.Perm b.values := by
  refine (List.perm_ext_iff_of_nodup (nodup_entries hn).of_map b.once.of_map).mpr ?_
  rintro ⟨f, d⟩
  rw [mem_entries, get?, Entries.lookup_eq_some_iff b.once]

theorem isComplete_iff : b.isComplete = true ↔ b.missing = [] := by
  simp [isComplete, missing, List.filter_eq_nil_iff]

theorem finish_eq (b : Builder) : b.finish = match b.missing with
    | [] => .ok b
    | f :: _ => .error (.missingField b.schema.name f) := by
  rw [finish, ← List.head?_filter, ← missing]
  cases b.missing <;> rfl

theorem toInstance_finish (b : Builder) : b.finish.map toInstance = b.toInstance.finish := by
  have hmissing : b.toInstance.missing = b.missing := by
    simp only [Instance.missing, Instance.isSet, get_toInstance, missing, isSet_eq]
    rfl
  rw [finish_eq, Instance.finish, hmissing]
  cases b.missing <;> rfl

theorem toJson_members (hn : b.schema.fieldNames.Nodup) :
    ∃ members : Json.Members, b.toJson = .object members ∧
      (members.map (·.1)).Perm (b.entries.map (·.1)) ∧
      ∀ f, members.get? f = (b.get? f).map Datum.toJson := by
  have hset : b.toInstance.SetsOnce := nodup_entries hn
  refine ⟨b.toInstance.members, b.toInstance.toJson_eq, Instance.keys_members hset, ?_⟩
  intro f
  cases hf : b.get? f with
  | some d => exact Instance.get_members hset ((get_toInstance b f).trans hf)
  | none =>
    have hkey : f ∉ b.entries.map (·.1) := by simp [keys_entries, isSet_eq, hf]
    exact Entries.lookup_eq_none fun h => hkey ((Instance.keys_members hset).mem_iff.mp h)

/-- All that a builder shows agrees about which fields are set, and these are declared fields. -/
structure Agrees (b : Builder) : Prop where
  isSet : ∀ f, b.isSet f = true ↔ ∃ d, b.get? f = some d
  declared : ∀ f, b.isSet f = true → f ∈ b.schema.fieldNames
  order : b.entries.map (·.1) = b.schema.fieldNames.filter b.isSet
  entries : ∀ f d, (f, d) ∈ b.entries ↔ b.get? f = some d
  size : b.size = b.entries.length
  missing : b.missing = b.schema.fieldNames.filter fun f => !b.isSet f
  count : b.size + b.missing.length = b.schema.fieldNames.length
  complete : b.isComplete = true ↔ b.missing = []
  json : ∃ members : Json.Members, b.toJson = .object members ∧
    (members.map (·.1)).Perm (b.entries.map (·.1)) ∧
    ∀ f, members.get? f = (b.get? f).map Datum.toJson

theorem agrees (hn : b.schema.fieldNames.Nodup) : b.Agrees where
  isSet f := by rw [isSet_eq, Option.isSome_iff_exists]
  declared f h := by
    rw [isSet_eq, Option.isSome_iff_exists] at h
    obtain ⟨d, hd⟩ := h
    exact declared_of_get hd
  order := keys_entries b
  entries _ _ := mem_entries
  size := (entries_perm hn).length_eq.symm
  missing := rfl
  count := by
    have hset : b.size = (b.schema.fieldNames.filter b.isSet).length := by
      rw [← keys_entries, List.length_map]
      exact (entries_perm hn).length_eq.symm
    rw [hset, Builder.missing, ← List.length_eq_length_filter_add]
  complete := isComplete_iff
  json := toJson_members hn

theorem same_iff {a b : Builder} : a.same b = true ↔ a.toInstance = b.toInstance := by
  rw [same, Bool.and_eq_true, beq_iff_eq, Entries.sameContent_iff a.once b.once]
  constructor
  · rintro ⟨hs, hget⟩
    rw [toInstance_eq, toInstance_eq, hs]
    exact Instance.collect_congr fun f _ => hget f
  · intro h
    refine ⟨congrArg Instance.schema h, ?_⟩
    intro f
    have hget : a.toInstance.get? f = b.toInstance.get? f := by rw [h]
    rwa [get_toInstance, get_toInstance] at hget

/-- A call that leaves the builder as it is where the field cannot be set. -/
def setOrKeep (b : Builder) (field : String) (d : Datum) : Builder :=
  (b.set field d).toOption.getD b

def setAll (b : Builder) (calls : List (String × Datum)) : Builder :=
  calls.foldl (fun b (field, d) => b.setOrKeep field d) b

theorem setAll_append (b : Builder) (calls : List (String × Datum)) (f : String) (d : Datum) :
    b.setAll (calls ++ [(f, d)]) = (b.setAll calls).setOrKeep f d := by
  simp [setAll]

theorem set_declared (h : f ∈ b.schema.fieldNames) (d : Datum) : b.set f d = .ok (b.insert h d) :=
  dif_pos (RecordSchema.declares_iff.mpr h)

theorem set_undeclared (h : f ∉ b.schema.fieldNames) (d : Datum) :
    b.set f d = .error (DefinitionFault.undeclaredField b.schema.name f).error :=
  dif_neg fun hd => h (RecordSchema.declares_iff.mp hd)

theorem get_insert (h : f ∈ b.schema.fieldNames) (d : Datum) (g : String) :
    (b.insert h d).get? g = if g = f then some d else b.get? g := by
  rw [get?, insert, Entries.lookup_put]
  simp only [beq_iff_eq]
  rfl

theorem toInstance_set (b : Builder) (f : String) (d : Datum) :
    (b.set f d).map toInstance = b.toInstance.set f d := by
  by_cases h : f ∈ b.schema.fieldNames
  · rw [set_declared h, Instance.set_declared h]
    refine congrArg Except.ok (Instance.collect_congr ?_)
    intro g _
    rw [get_insert, get_toInstance]
  · have hd : ¬b.toInstance.schema.declares f = true := fun hd => h (RecordSchema.declares_iff.mp hd)
    rw [set_undeclared h, Instance.set, if_neg hd]
    rfl

theorem setOrKeep_cases (b : Builder) (f : String) (d : Datum) :
    (∃ h : f ∈ b.schema.fieldNames, b.set f d = .ok (b.insert h d) ∧
      b.setOrKeep f d = b.insert h d) ∨
    f ∉ b.schema.fieldNames ∧
      b.set f d = .error (DefinitionFault.undeclaredField b.schema.name f).error ∧
      b.setOrKeep f d = b := by
  by_cases h : f ∈ b.schema.fieldNames
  · refine .inl ⟨h, set_declared h d, ?_⟩
    rw [setOrKeep, set_declared h]
    rfl
  · refine .inr ⟨h, set_undeclared h d, ?_⟩
    rw [setOrKeep, set_undeclared h]
    rfl

theorem schema_setAll (b : Builder) (calls : List (String × Datum)) :
    (b.setAll calls).schema = b.schema := by
  induction calls using List.reverseRecOn with
  | nil => rfl
  | append_singleton calls e ih =>
    rw [setAll_append]
    rcases (b.setAll calls).setOrKeep_cases e.1 e.2 with ⟨h, -, hkeep⟩ | ⟨-, -, hkeep⟩
    · rw [hkeep]
      exact ih
    · rw [hkeep, ih]

theorem get_setAll (s : RecordSchema) (calls : List (String × Datum)) (f : String) :
    ((empty s).setAll calls).get? f =
      (calls.filter fun c => s.declares c.1).reverse.lookup f := by
  induction calls using List.reverseRecOn with
  | nil => rfl
  | append_singleton calls e ih =>
    obtain ⟨g, d⟩ := e
    have hs : ((empty s).setAll calls).schema = s := schema_setAll ..
    rw [setAll_append, List.filter_append, List.reverse_append]
    rcases ((empty s).setAll calls).setOrKeep_cases g d with ⟨h, -, hkeep⟩ | ⟨h, -, hkeep⟩
    · rw [hs, ← RecordSchema.declares_iff] at h
      rw [hkeep, get_insert, ih]
      simp [h, Entries.lookup_cons_ite]
    · rw [hs, ← RecordSchema.declares_iff, Bool.not_eq_true] at h
      rw [hkeep, ih]
      simp [h]

theorem toInstance_reordered (s : RecordSchema) {calls others : List (String × Datum)}
    (h : ∀ f, others.filter (·.1 == f) = calls.filter (·.1 == f)) :
    ((empty s).setAll others).toInstance = ((empty s).setAll calls).toInstance := by
  have hget : ∀ f, ((empty s).setAll others).get? f = ((empty s).setAll calls).get? f := by
    intro f
    rw [get_setAll, get_setAll]
    apply Entries.lookup_congr
    rw [List.filter_reverse, List.filter_reverse, List.filter_comm, List.filter_comm _ _ calls, h]
  rw [toInstance_eq, toInstance_eq, schema_setAll, schema_setAll]
  exact Instance.collect_congr fun f _ => hget f

/-- After any calls of `set` on a builder of a schema, a further call fails where the field is not
declared, and leaves the builder as it is; each field has the value of the last call that set it; all
that the builder shows agrees about which fields are set, in the order of the schema; it finishes as
it is if none is missing, and else names the first that is; and the calls can be reordered as long as
those for one field keep their order. -/
theorem after_calls (name : String) (description : Option String)
    (declarations : List (String × FieldType)) (calls : List (String × Datum)) :
    let s := RecordSchema.ofDeclarations name description declarations
    let b := (empty s).setAll calls
    (∀ f d, if s.declares f = true then b.set f d = .ok ((empty s).setAll (calls ++ [(f, d)]))
      else b.set f d = .error (DefinitionFault.undeclaredField s.name f).error ∧
        (empty s).setAll (calls ++ [(f, d)]) = b) ∧
    (∀ f, b.get? f = (calls.filter fun c => s.declares c.1).reverse.lookup f) ∧
    b.Agrees ∧
    (∀ r, b.finish = .ok r ↔ b.missing = [] ∧ r = b) ∧
    (∀ f rest, b.missing = f :: rest → b.finish = .error (.missingField s.name f)) ∧
    ∀ others, (∀ f, others.filter (·.1 == f) = calls.filter (·.1 == f)) →
      ((empty s).setAll others).same b = true ∧ ((empty s).setAll others).toJson = b.toJson := by
  intro s b
  have hs : b.schema = s := schema_setAll (empty s) calls
  have hn : b.schema.fieldNames.Nodup := by
    rw [hs, RecordSchema.fieldNames, RecordSchema.fields_ofDeclarations]
    exact Entries.nodup_ofList declarations
  refine ⟨?_, get_setAll s calls, agrees hn, ?_, ?_, ?_⟩
  · intro f d
    have hlast : (empty s).setAll (calls ++ [(f, d)]) = b.setOrKeep f d := setAll_append ..
    rw [hlast]
    rcases b.setOrKeep_cases f d with ⟨h, hset, hkeep⟩ | ⟨h, hset, hkeep⟩
    · rw [hs, ← RecordSchema.declares_iff] at h
      rw [if_pos h, hset, hkeep]
    · rw [hs] at h hset
      rw [if_neg fun hd => h (RecordSchema.declares_iff.mp hd)]
      exact ⟨hset, hkeep⟩
  · intro r
    rw [finish_eq]
    cases b.missing <;> simp [eq_comm]
  · intro f rest hm
    rw [finish_eq, hm, hs]
  · intro others h
    have hsame := toInstance_reordered s h
    exact ⟨same_iff.mpr hsame, congrArg Instance.toJson hsame⟩

/-- The name of a user is set before and after the identifier, or twice after it; the age, which is
not declared, is passed over in both. -/
theorem user_set_in_turns :
    let s := RecordSchema.ofDeclarations "User" none [("id", .integer), ("name", .text)]
    let calls : List (String × Datum) :=
      [("name", .text "ann"), ("age", .integer 30), ("id", .integer 1), ("name", .text "bo")]
    let others : List (String × Datum) :=
      [("id", .integer 1), ("name", .text "ann"), ("name", .text "bo"), ("age", .integer 30)]
    (∀ f, others.filter (·.1 == f) = calls.filter (·.1 == f)) ∧
      ((empty s).setAll others).values ≠ ((empty s).setAll calls).values ∧
      ((empty s).setAll others).same ((empty s).setAll calls) = true ∧
      ((empty s).setAll others).toJson = ((empty s).setAll calls).toJson := by
  intro s calls others
  have horder : ∀ f, others.filter (·.1 == f) = calls.filter (·.1 == f) := by
    intro f
    by_cases hname : "name" = f
    · subst hname
      rfl
    · by_cases hid : "id" = f
      · subst hid
        rfl
      · simp [others, calls, hname, hid, List.filter_cons]
  exact ⟨horder, by decide +kernel, (after_calls "User" none _ calls).2.2.2.2.2 others horder⟩

end Builder

end Covenant
