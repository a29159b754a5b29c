import Covenant.Proofs.Definitions

namespace Covenant.Docs

def shown (o : Operation) : String × Endpoint :=
  (Text.lowerAscii o.method.text, Endpoint.ofOperation o)

theorem keys_foldl_addPath (ops : List Operation) :
    (ops.foldl addPath []).map (·.1) = (ops.map (·.template)).eraseDups :=
  Entries.keys_foldl_put (·.template) _ ops

theorem nodup_foldl_addPath (ops : List Operation) : ((ops.foldl addPath []).map (·.1)).Nodup :=
  Entries.nodup_foldl_put (fun o : Operation => o.template) _ ops

theorem lookup_foldl_addPath (ops : List Operation) (template : String) :
    ((ops.foldl addPath []).lookup template).getD [] =
      Entries.ofList ((ops.filter (·.template = template)).map shown) := by
  induction ops using List.reverseRecOn with
  | nil => rfl
  | append_singleton ops o ih =>
    rw [List.foldl_append, List.foldl_cons, List.foldl_nil, addPath, Entries.lookup_put,
      List.filter_append, List.map_append]
    by_cases ht : template = o.template
    · subst ht
      rw [if_pos BEq.rfl, Option.getD_some, ih, ← Entries.ofList_append]
      simp [shown]
    · rw [if_neg (by simpa using ht), ih]
      simp [Ne.symm ht]

theorem methods_of_mem {ops : List Operation} {template : String}
    {methods : List (String × Endpoint)} (h : (template, methods) ∈ ops.foldl addPath []) :
    methods = Entries.ofList ((ops.filter (·.template = template)).map shown) := by
  rw [← lookup_foldl_addPath, (Entries.lookup_eq_some_iff (nodup_foldl_addPath ops)).mpr h]
  rfl

theorem mem_methods {ops : List Operation} {template method : String}
    {methods : List (String × Endpoint)} (h : (template, methods) ∈ ops.foldl addPath [])
    {e : Endpoint} :
    (method, e) ∈ methods ↔ ∃ before o after, ops = before ++ o :: after ∧
      slot o = (template, method) ∧ (∀ p ∈ after, slot p ≠ (template, method)) ∧
      e = Endpoint.ofOperation o := by
  have hn : (methods.map (·.1)).Nodup := by
    rw [methods_of_mem h]
    exact Entries.nodup_ofList _
  have hentry : entryAt? (ops.foldl addPath []) (template, method) = methods.lookup method := by
    rw [entryAt?, (Entries.lookup_eq_some_iff (nodup_foldl_addPath ops)).mpr h, Option.bind_some]
  rw [← Entries.lookup_eq_some_iff hn, ← hentry, entryAt_foldl, Option.map_eq_some_iff]
  simp only [find?_reverse_eq_some, decide_eq_true_eq, decide_eq_false_iff_not]
  constructor
  · rintro ⟨o, ⟨before, after, hops, ho, hafter⟩, rfl⟩
    exact ⟨before, o, after, hops, ho, hafter, rfl⟩
  · rintro ⟨before, o, after, hops, ho, hafter, rfl⟩
    exact ⟨o, ⟨before, after, hops, ho, hafter⟩, rfl⟩

/-- What an entry says of its operation. -/
structure Endpoint.Describes (e : Endpoint) (o : Operation) : Prop where
  operation : e.operation = o.id
  parameters : e.parameters =
    (o.contract.request.path.elim [] fun s => s.fields.map fun (f, t) =>
      { name := f, location := .path, type := some (Text.lowerAscii t.name), required := true,
        reference := none }) ++
    (o.contract.request.body.elim [] fun s =>
      [{ name := "body", location := .body, type := none, required := true,
         reference := some ("#/definitions/" ++ s.name) }])
  responses : e.responses = o.contract.responses.map fun (status, r) =>
    (status.code, { description := r.description, reference := "#/definitions/" ++ r.schema.name })

theorem describes_ofOperation (o : Operation) : (Endpoint.ofOperation o).Describes o where
  operation := rfl
  parameters := by
    have hpath : (o.contract.request.path.toList.flatMap fun s => s.fields.map fun (f, t) =>
        Parameter.inPath f (typeName t)) =
        o.contract.request.path.elim [] fun s => s.fields.map fun (f, t) =>
          .inPath f (typeName t) := by
      cases o.contract.request.path <;> simp
    have hbody : (o.contract.request.body.toList.map fun s => Parameter.forBody s.name) =
        o.contract.request.body.elim [] fun s => [.forBody s.name] := by
      cases o.contract.request.body <;> rfl
    rw [Endpoint.ofOperation, hpath, hbody]
    rfl
  responses := rfl

theorem describes_iff {e : Endpoint} {o : Operation} :
    e.Describes o ↔ e = Endpoint.ofOperation o := by
  constructor
  · intro h
    have ho := describes_ofOperation o
    obtain ⟨operation, parameters, responses⟩ := e
    rw [show operation = _ from h.operation.trans ho.operation.symm,
      show parameters = _ from h.parameters.trans ho.parameters.symm,
      show responses = _ from h.responses.trans ho.responses.symm]
  · rintro rfl
    exact describes_ofOperation o

/-- In the document of a registry that calls have filled, every template of an operation stands once,
in the order of the operations, and under it every method in lower case that they have with it, in
the same order. Under a method stands the last operation of both: one required parameter for each
field of its path, with the name of its type in lower case, behind them one for its body if it has
one, and its responses as they are declared, each with its description and its schema's name. -/
theorem document_paths (basic : BasicInfo) (os : List Operation) :
    let r := Registry.empty.registerAll os
    let paths := (Document.ofRegistry basic r).value.paths
    paths.map (·.1) = (r.operations.map (·.template)).eraseDups ∧
    ∀ template methods, (template, methods) ∈ paths →
      methods.map (·.1) = ((r.operations.filter (·.template = template)).map
        fun o => Text.lowerAscii o.method.text).eraseDups ∧
      ∀ method e, (method, e) ∈ methods ↔ ∃ before o after, r.operations = before ++ o :: after ∧
        (o.template = template ∧ Text.lowerAscii o.method.text = method) ∧
        (∀ p ∈ after, ¬(p.template = template ∧ Text.lowerAscii p.method.text = method)) ∧
        e.Describes o := by
  intro r paths
  refine ⟨keys_foldl_addPath r.operations, ?_⟩
  intro template methods h
  constructor
  · rw [methods_of_mem h, Entries.keys_ofList, List.map_map]
    rfl
  · intro method e
    rw [mem_methods h]
    simp only [slot, Prod.mk.injEq, ne_eq, describes_iff]

/-- The user service has two templates with two methods each, in the order of its operations, which
go from one template to the other and back. -/
theorem user_service_grouped :
    let r := Registry.empty.registerAll Sample.registry.operations
    let paths := (Document.ofRegistry ⟨"localhost", "Users", "1", [], "/"⟩ r).value.paths
    paths.map (·.1) = ["/users/\x7bid\x7d", "/users"] ∧
      ∀ methods, ("/users/\x7bid\x7d", methods) ∈ paths → methods.map (·.1) = ["get", "put"] := by
  intro r paths
  obtain ⟨htemplates, hmethods⟩ := document_paths ⟨"localhost", "Users", "1", [], "/"⟩
    Sample.registry.operations
  refine ⟨htemplates.trans (by decide +kernel), ?_⟩
  intro methods h
  rw [(hmethods _ _ h).1]
  decide +kernel

end Covenant.Docs
