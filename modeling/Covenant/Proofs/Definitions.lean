import Covenant.Proofs.DocumentPaths
import Covenant.Proofs.Tables

namespace Covenant

def Registry.registerAll (r : Registry) (os : List Operation) : Registry :=
  os.foldl (fun r o => (r.register o).value.1) r

/-- Every status has one response, and the schemas of the body and the responses have each of their
fields once. -/
structure Contract.Keyed (c : Contract) : Prop where
  statuses : (c.responses.map (·.1)).Nodup
  fields : ∀ s ∈ c.request.body.toList ++ c.responses.map (·.2.schema), s.fieldNames.Nodup

instance (c : Contract) : Decidable c.Keyed :=
  decidable_of_iff ((c.responses.map (·.1)).Nodup ∧
      ∀ s ∈ c.request.body.toList ++ c.responses.map (·.2.schema), s.fieldNames.Nodup)
    ⟨fun h => ⟨h.1, h.2⟩, fun h => ⟨h.statuses, h.fields⟩⟩

theorem Contract.keyed_ofList {request : RequestContract}
    {pairs : List (Status × ResponseContract)}
    (hbody : ∀ s, request.body = some s → s.fieldNames.Nodup)
    (hpairs : ∀ e ∈ pairs, e.2.schema.fieldNames.Nodup) :
    (Contract.mk request (Entries.ofList pairs)).Keyed := by
  refine ⟨Entries.nodup_ofList pairs, ?_⟩
  intro s hs
  rcases List.mem_append.mp hs with hs | hs
  · exact hbody s (Option.mem_toList.mp hs)
  · obtain ⟨e, he, rfl⟩ := List.mem_map.mp hs
    exact hpairs e (Entries.mem_of_mem_ofList he)

def Registry.Keyed (r : Registry) : Prop := ∀ o ∈ r.operations, o.contract.Keyed

instance (r : Registry) : Decidable r.Keyed :=
  inferInstanceAs (Decidable (∀ o ∈ r.operations, o.contract.Keyed))

namespace Docs

/-- The schemas that a registry needs defined, in order of use. -/
def schemasOf (r : Registry) : List RecordSchema := r.operations.flatMap usedSchemas

/-- Schemas of one name have the same fields. -/
def Consistent (r : Registry) : Prop :=
  ∀ s ∈ schemasOf r, ∀ t ∈ schemasOf r, s.name = t.name → s.sameShape t = true

instance (r : Registry) : Decidable (Consistent r) :=
  inferInstanceAs (Decidable (∀ s ∈ schemasOf r, ∀ t ∈ schemasOf r,
    s.name = t.name → s.sameShape t = true))

def Endpoint.references (e : Endpoint) : List String :=
  e.parameters.filterMap (·.reference) ++ e.responses.map (·.2.reference)

/-- The definition that a reference leads to. -/
def Document.resolve? (d : Document) (reference : String) : Option Definition :=
  d.definitions.findSome? fun e =>
    if definitionReference e.1 = reference then some e.2 else none

/-- The document has the entry under the template and the method. -/
def Document.Shows (d : Document) (template method : String) (e : Endpoint) : Prop :=
  ∃ methods, (template, methods) ∈ d.paths ∧ (method, e) ∈ methods

theorem mem_of_getD_lookup {paths : List (String × List (String × Endpoint))} {template : String}
    {x : String × Endpoint} (h : x ∈ (paths.lookup template).getD []) :
    ∃ methods, (template, methods) ∈ paths ∧ x ∈ methods := by
  cases hl : paths.lookup template with
  | none => simp [hl] at h
  | some methods =>
    obtain ⟨before, after, rfl, -⟩ := List.lookup_eq_some_iff.mp hl
    rw [hl] at h
    exact ⟨methods, by simp, h⟩

theorem mem_foldl_addPath {ops : List Operation} {template method : String}
    {methods : List (String × Endpoint)} {e : Endpoint}
    (ht : (template, methods) ∈ ops.foldl addPath []) (hm : (method, e) ∈ methods) :
    ∃ o ∈ ops, slot o = (template, method) ∧ e = Endpoint.ofOperation o := by
  induction ops using List.reverseRecOn generalizing template methods method e with
  | nil => cases ht
  | append_singleton ops o ih =>
    have hold : ∀ {t ms m x}, (t, ms) ∈ ops.foldl addPath [] → (m, x) ∈ ms →
        ∃ p ∈ ops ++ [o], slot p = (t, m) ∧ x = Endpoint.ofOperation p := by
      intro t ms m x ht hm
      obtain ⟨p, hp, hslot⟩ := ih ht hm
      exact ⟨p, List.mem_append_left _ hp, hslot⟩
    rw [List.foldl_append, List.foldl_cons, List.foldl_nil, addPath] at ht
    rcases Entries.mem_put ht with heq | ht
    · obtain ⟨rfl, rfl⟩ := Prod.mk.inj heq
      rcases Entries.mem_put hm with heq | hm
      · obtain ⟨rfl, rfl⟩ := Prod.mk.inj heq
        exact ⟨o, by simp, rfl, rfl⟩
      · obtain ⟨ms, ht, hm⟩ := mem_of_getD_lookup hm
        exact hold ht hm
    · exact hold ht hm

theorem shows_ofRegistry {basic : BasicInfo} {r : Registry} {template method : String}
    {e : Endpoint} (h : (Document.ofRegistry basic r).value.Shows template method e) :
    ∃ o ∈ r.operations, slot o = (template, method) ∧ e = Endpoint.ofOperation o := by
  obtain ⟨methods, ht, hm⟩ := h
  exact mem_foldl_addPath ht hm

theorem shows_of_entryAt {d : Document} {template method : String} {e : Endpoint}
    (h : entryAt? d.paths (template, method) = some e) : d.Shows template method e := by
  obtain ⟨methods, ht, hm⟩ := Option.bind_eq_some_iff.mp h
  obtain ⟨before, after, hpaths, -⟩ := List.lookup_eq_some_iff.mp ht
  obtain ⟨first, last, hmethods, -⟩ := List.lookup_eq_some_iff.mp hm
  exact ⟨methods, by simp [hpaths], by simp [hmethods]⟩

theorem references_ofOperation (o : Operation) :
    (Endpoint.ofOperation o).references =
      (usedSchemas o).map fun s => definitionReference s.name := by
  have hparameters : (Endpoint.ofOperation o).parameters.filterMap (·.reference) =
      [] ++ o.contract.request.body.toList.map fun s => definitionReference s.name := by
    rw [Endpoint.ofOperation, List.filterMap_append]
    congr 1
    · -- a parameter of the path has a type and no definition
      simp only [List.filterMap_eq_nil_iff, List.mem_flatMap, List.mem_map]
      rintro _ ⟨s, -, e, -, rfl⟩
      rfl
    · cases o.contract.request.body <;> rfl
  rw [Endpoint.references, hparameters, List.nil_append, usedSchemas, List.map_append, List.map_map]
  exact congrArg (_ ++ ·) (List.map_map ..)

theorem body_mem_parameters {o : Operation} {p : Parameter}
    (hp : p ∈ (Endpoint.ofOperation o).parameters) (hl : p.location = .body) :
    ∃ s, o.contract.request.body = some s ∧ p = .forBody s.name := by
  simp only [Endpoint.ofOperation, List.mem_append, List.mem_flatMap, List.mem_map,
    Option.mem_toList] at hp
  rcases hp with ⟨s, -, e, -, rfl⟩ | ⟨s, hs, rfl⟩
  · cases hl
  · exact ⟨s, hs, rfl⟩

theorem define_value (definitions : List (String × Definition)) (s : RecordSchema) :
    (define definitions s).value = Entries.put s.name (Definition.ofSchema s) definitions := by
  unfold define
  cases definitions.lookup s.name with
  | none => rfl
  | some previous =>
    dsimp only
    split <;> rfl

theorem keys_ofSchema (s : RecordSchema) :
    (Definition.ofSchema s).properties.map (·.1) = s.fieldNames := by
  simp [Definition.ofSchema, RecordSchema.fieldNames]

/-- A schema as a definition under its name. -/
def named (s : RecordSchema) : String × Definition := (s.name, Definition.ofSchema s)

theorem defineAll_value (ops : List Operation) :
    (defineAll ops).value = Entries.ofList ((ops.flatMap usedSchemas).map named) := by
  unfold defineAll Entries.ofList
  generalize ops.flatMap usedSchemas = schemas
  generalize ([] : List (String × Definition)) = definitions
  induction schemas generalizing definitions with
  | nil => rfl
  | cons s rest ih =>
    rw [List.foldlM_cons, Recorded.value_bind, ih, define_value]
    rfl

theorem definitions_ofRegistry (basic : BasicInfo) (r : Registry) :
    (Document.ofRegistry basic r).value.definitions =
      Entries.ofList ((schemasOf r).map named) := defineAll_value r.operations

theorem lookup_named (schemas : List RecordSchema) (name : String) :
    (schemas.map named).lookup name =
      (schemas.find? (·.name = name)).map Definition.ofSchema := by
  induction schemas with
  | nil => rfl
  | cons s rest ih =>
    rw [List.map_cons, named, Entries.lookup_cons_ite, ih, List.find?_cons]
    by_cases hs : s.name = name
    · simp [hs]
    · simp [hs, Ne.symm hs]

theorem lookup_definitions {schemas : List RecordSchema} {name : String}
    {definition : Definition} :
    (Entries.ofList (schemas.map named)).lookup name = some definition ↔
      ∃ before s after, schemas = before ++ s :: after ∧ s.name = name ∧
        (∀ t ∈ after, t.name ≠ name) ∧ definition = Definition.ofSchema s := by
  rw [Entries.lookup_ofList, ← List.map_reverse, lookup_named, Option.map_eq_some_iff]
  simp only [find?_reverse_eq_some, decide_eq_true_eq, decide_eq_false_iff_not]
  constructor
  · rintro ⟨s, ⟨before, after, heq, hname, hafter⟩, rfl⟩
    exact ⟨before, s, after, heq, hname, hafter, rfl⟩
  · rintro ⟨before, s, after, heq, hname, hafter, rfl⟩
    exact ⟨s, ⟨before, after, heq, hname, hafter⟩, rfl⟩

theorem mem_keys_definitions {schemas : List RecordSchema} {s : RecordSchema} (hs : s ∈ schemas) :
    s.name ∈ (Entries.ofList (schemas.map named)).map (·.1) := by
  rw [Entries.keys_ofList, List.mem_eraseDups, List.map_map]
  exact List.mem_map_of_mem (f := fun s => s.name) hs

theorem definitionReference_injective : Function.Injective definitionReference :=
  fun _ _ h => (String.append_right_inj _).mp h

theorem resolve_definitionReference (d : Document) (name : String) :
    d.resolve? (definitionReference name) = d.definitions.lookup name := by
  simp [Document.resolve?, List.lookup_eq_findSome?, definitionReference_injective.eq_iff,
    eq_comm (a := name)]

theorem lookup_of_consistent {r : Registry} (h : Consistent r) {s : RecordSchema}
    (hs : s ∈ schemasOf r) :
    (Entries.ofList ((schemasOf r).map named)).lookup s.name = some (Definition.ofSchema s) := by
  have hsome := Entries.lookup_isSome.mpr (mem_keys_definitions hs)
  obtain ⟨definition, hd⟩ := Option.isSome_iff_exists.mp hsome
  obtain ⟨before, t, after, heq, hname, -, rfl⟩ := lookup_definitions.mp hd
  have ht : t ∈ schemasOf r := by simp [heq]
  have hfields : t.fields = s.fields := eq_of_beq (h t ht s hs hname)
  rw [hd, Definition.ofSchema, Definition.ofSchema, hfields]

/-- In the document of a registry, every reference of a body or a response names a definition; the
names are those of the schemas of bodies and responses, in order of first use, and each stands for
the last of them that has it, a property for a field. Where schemas of one name have the same
fields, the references of an entry lead to the definitions of the very schemas of its operation. -/
theorem document_definitions (basic : BasicInfo) (os : List Operation) :
    let r := Registry.empty.registerAll os
    let d := (Document.ofRegistry basic r).value
    let names := d.definitions.map (·.1)
    (∀ template method e, d.Shows template method e →
      (∀ p ∈ e.parameters, p.location = .body →
        ∃ name ∈ names, p.reference = some ("#/definitions/" ++ name)) ∧
      ∀ x ∈ e.responses, ∃ name ∈ names, x.2.reference = "#/definitions/" ++ name) ∧
    names = ((schemasOf r).map (·.name)).eraseDups ∧
    (∀ name definition, (name, definition) ∈ d.definitions ↔
      ∃ before s after, schemasOf r = before ++ s :: after ∧ s.name = name ∧
        (∀ t ∈ after, t.name ≠ name) ∧
        definition = ⟨"object", s.fields.map fun (f, t) => (f, Text.lowerAscii t.name)⟩) ∧
    (Consistent r → ∀ template method e, d.Shows template method e →
      ∃ o ∈ r.operations, slot o = (template, method) ∧ e.operation = o.id ∧
        e.references.map d.resolve? =
          (usedSchemas o).map fun s => some (Definition.ofSchema s)) := by
  intro r d names
  have hdefs : d.definitions = Entries.ofList ((schemasOf r).map named) :=
    definitions_ofRegistry basic r
  have hkey : ∀ o ∈ r.operations, ∀ s ∈ usedSchemas o, s.name ∈ names := by
    intro o ho s hs
    simp only [names, hdefs]
    exact mem_keys_definitions (List.mem_flatMap_of_mem ho hs)
  refine ⟨?_, ?_, ?_, ?_⟩
  · intro template method e he
    obtain ⟨o, ho, -, rfl⟩ := shows_ofRegistry he
    refine ⟨?_, ?_⟩
    · intro p hp hl
      obtain ⟨s, hs, rfl⟩ := body_mem_parameters hp hl
      exact ⟨s.name, hkey o ho s (by simp [usedSchemas, hs]), rfl⟩
    · intro x hx
      obtain ⟨y, hy, rfl⟩ := List.mem_map.mp hx
      refine ⟨y.2.schema.name, hkey o ho _ ?_, rfl⟩
      exact List.mem_append_right _ (List.mem_map_of_mem hy)
  · simp only [names, hdefs, Entries.keys_ofList, List.map_map]
    rfl
  · intro name definition
    rw [hdefs, ← Entries.lookup_eq_some_iff (Entries.nodup_ofList _)]
    exact lookup_definitions
  · intro hc template method e he
    obtain ⟨o, ho, hslot, rfl⟩ := shows_ofRegistry he
    refine ⟨o, ho, hslot, rfl, ?_⟩
    rw [references_ofOperation, List.map_map]
    refine List.map_congr_left fun s hs => ?_
    rw [Function.comp_apply, resolve_definitionReference, hdefs]
    exact lookup_of_consistent hc (List.mem_flatMap_of_mem ho hs)

/-- In the user service an update refers to the schemas of its own body and response, of which the
second is shared with other operations. -/
theorem user_update_references :
    let r := Registry.empty.registerAll Sample.registry.operations
    let d := (Document.ofRegistry ⟨"localhost", "Users", "1", [], "/"⟩ r).value
    Consistent r ∧ ∃ e, d.Shows "/users/\x7bid\x7d" "put" e ∧
      e.references.map d.resolve? =
        [some (Definition.ofSchema Sample.newUser), some (Definition.ofSchema Sample.user)] := by
  intro r d
  have hc : Consistent r := by decide +kernel
  have hentry : (entryAt? d.paths ("/users/\x7bid\x7d", "put")).map (·.operation) =
    some "updateUser" := by decide +kernel
  obtain ⟨e, he, hop⟩ := Option.map_eq_some_iff.mp hentry
  have hshows := shows_of_entryAt he
  obtain ⟨o, ho, -, hid, hrefs⟩ :=
    (document_definitions ⟨"localhost", "Users", "1", [], "/"⟩ Sample.registry.operations).2.2.2
      hc _ _ e hshows
  have hupdate : ∀ p ∈ r.operations, p.id = "updateUser" → p.contract = Sample.updateUser := by
    decide +kernel
  refine ⟨hc, e, hshows, ?_⟩
  rw [hrefs, usedSchemas, hupdate o ho (hid.symm.trans hop)]
  rfl

end Docs

end Covenant
