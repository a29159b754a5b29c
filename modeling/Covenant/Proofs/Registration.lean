import Covenant.Proofs.Members
import Covenant.Proofs.Templates
import Covenant.Sample.Users
import Covenant.Service

namespace Covenant

namespace Registry

theorem ids_cons {q : Operation} {rest : List Operation} :
    ((q :: rest).map (·.id)).Nodup ↔
      (∀ p ∈ rest, p.id ≠ q.id) ∧ (rest.map (·.id)).Nodup := by
  simp

theorem place_append {o : Operation} {ops : List Operation} (h : ∀ p ∈ ops, p.id ≠ o.id) :
    place o ops = ops ++ [o] := by
  induction ops with
  | nil => rfl
  | cons p rest ih =>
    obtain ⟨hp, hrest⟩ := List.forall_mem_cons.mp h
    rw [place, if_neg hp, ih hrest, List.cons_append]

theorem place_set {o p : Operation} {ops : List Operation} (hn : (ops.map (·.id)).Nodup) {i : ℕ}
    (hi : ops[i]? = some p) (hp : p.id = o.id) : place o ops = ops.set i o := by
  induction ops generalizing i with
  | nil => simp at hi
  | cons q rest ih =>
    obtain ⟨hq, hrest⟩ := ids_cons.mp hn
    cases i with
    | zero =>
      cases hi
      rw [place, if_pos hp, List.set_cons_zero]
    | succ i =>
      -- the ids are distinct, so the operation at the head is not the one to be replaced
      rw [List.getElem?_cons_succ] at hi
      have hqo : q.id ≠ o.id := by
        rw [← hp]
        exact (hq p (List.mem_of_getElem? hi)).symm
      rw [place, if_neg hqo, ih hrest hi, List.set_cons_succ]

/-- Each operation under its id. -/
def bindings (ops : List Operation) : List (String × Operation) := ops.map fun o => (o.id, o)

theorem keys_bindings (ops : List Operation) : (bindings ops).map (·.1) = ops.map (·.id) := by
  rw [bindings, List.map_map]
  rfl

theorem lookup_bindings (ops : List Operation) (id : String) :
    (bindings ops).lookup id = ops.find? (·.id = id) := by
  induction ops with
  | nil => rfl
  | cons o rest ih =>
    rw [bindings, List.map_cons, Entries.lookup_cons_ite, List.find?_cons]
    by_cases h : o.id = id
    · simp [h]
    · simpa [bindings, h, Ne.symm h] using ih

theorem bindings_place (o : Operation) (ops : List Operation) :
    bindings (place o ops) = Entries.put o.id o (bindings ops) := by
  induction ops with
  | nil => rfl
  | cons p rest ih =>
    by_cases h : p.id = o.id
    · simp [bindings, place, Entries.put, h]
    · simpa [bindings, place, Entries.put, h] using ih

theorem mem_iff_lookup {o : Operation} {ops : List Operation} (hn : (ops.map (·.id)).Nodup) :
    o ∈ ops ↔ (bindings ops).lookup o.id = some o := by
  rw [← keys_bindings] at hn
  rw [Entries.lookup_eq_some_iff hn, bindings, List.mem_map]
  constructor
  · intro ho
    exact ⟨o, ho, rfl⟩
  · rintro ⟨p, hp, heq⟩
    obtain rfl : p = o := congrArg Prod.snd heq
    exact hp

theorem nodup_place {o : Operation} {ops : List Operation} (hn : (ops.map (·.id)).Nodup) :
    ((place o ops).map (·.id)).Nodup := by
  rw [← keys_bindings] at hn ⊢
  rw [bindings_place]
  exact Entries.nodup_put o.id o hn

theorem mem_place {o p : Operation} {ops : List Operation} (hn : (ops.map (·.id)).Nodup) :
    p ∈ place o ops ↔ p = o ∨ p ∈ ops ∧ p.id ≠ o.id := by
  rw [mem_iff_lookup (nodup_place hn), bindings_place, Entries.lookup_put, mem_iff_lookup hn]
  by_cases hp : p.id = o.id
  · simp [hp, eq_comm]
  · have hne : p ≠ o := fun h => hp (congrArg Operation.id h)
    simp [hp, hne]

theorem register_operations (r : Registry) (o : Operation) :
    (r.register o).value.1.operations = place o r.operations := by
  unfold register
  cases r.get? o.id <;> rfl

theorem get_of_mem {r : Registry} (hn : (r.operations.map (·.id)).Nodup) {o : Operation}
    (ho : o ∈ r.operations) : r.get? o.id = some o := by
  rw [get?, ← lookup_bindings]
  exact (mem_iff_lookup hn).mp ho

/-- What holds of every registry that a draft reaches. -/
structure Sound (r : Registry) : Prop where
  ids : (r.operations.map (·.id)).Nodup
  checked : ∀ o ∈ r.operations, o.contract.request.check = .ok ()
  covered : ∀ o ∈ r.operations, ∀ s, o.contract.request.path = some s →
    ∀ f ∈ s.fieldNames, f ∈ o.parameters
  routes : ∀ o ∈ r.operations, ∀ p ∈ r.operations, o.method = p.method →
    o.template = p.template → o.id = p.id

theorem sound_empty : Sound empty := by
  constructor <;> simp [empty]

end Registry

namespace Draft

theorem routeFault_eq_none {r : Registry} {o : Operation} :
    routeFault? r o = none ↔
      ∀ p ∈ r.operations, p.method = o.method → p.template = o.template → p.id = o.id := by
  simp [routeFault?]

theorem segmentFault_eq_none {o : Operation} :
    segmentFault? o = none ↔ ∀ s, o.contract.request.path = some s →
      ∀ f ∈ s.fieldNames, Template.mentions o.template f = true := by
  cases h : o.contract.request.path <;> simp [segmentFault?, h, ← Option.eq_none_iff_forall_ne_some]

/-- What a draft asks of an operation: the request passes its own check, the fields of the path are
parameters of the template, and no operation with another id has the route. -/
structure Takes (d : Draft) (o : Operation) : Prop where
  checked : o.contract.request.check = .ok ()
  covered : ∀ s, o.contract.request.path = some s → ∀ f ∈ s.fieldNames, f ∈ o.parameters
  free : ∀ p ∈ d.registry.operations, p.method = o.method → p.template = o.template → p.id = o.id

theorem fault_eq_none {d : Draft} {o : Operation} : d.fault? o = none ↔ d.Takes o := by
  have hnone : d.fault? o = none ↔ o.contract.request.check = .ok () ∧ segmentFault? o = none ∧
      routeFault? d.registry o = none := by
    simp [fault?, RequestContract.check_eq_ok]
  simp only [hnone, segmentFault_eq_none, routeFault_eq_none, Template.mentions_iff]
  constructor
  · rintro ⟨hcheck, hpath, hfree⟩
    exact ⟨hcheck, hpath, hfree⟩
  · rintro ⟨hcheck, hpath, hfree⟩
    exact ⟨hcheck, hpath, hfree⟩

/-- A call is refused, and the draft stays as it is, or the operation is registered. -/
theorem addRoute_cases (d : Draft) (o : Operation) :
    (¬d.Takes o ∧ ∃ e, (d.addRoute o).value = (d, .error e)) ∨
    (d.Takes o ∧ (d.addRoute o).value =
      ({ d with registry := ⟨Registry.place o d.registry.operations⟩ }, .ok ())) := by
  unfold addRoute
  rw [← fault_eq_none]
  cases h : d.fault? o with
  | some fault => exact .inl ⟨nofun, fault.error, rfl⟩
  | none =>
    refine .inr ⟨rfl, ?_⟩
    simp only [Recorded.value_bind, Recorded.value_pure, ← Registry.register_operations]

theorem addRoute_ok {d : Draft} {o : Operation} :
    (d.addRoute o).value.2 = .ok () ↔ d.Takes o := by
  rcases d.addRoute_cases o with ⟨hno, e, he⟩ | ⟨htakes, ho⟩
  · simp [he, hno]
  · simp [ho, htakes]

theorem addRoute_sound {d : Draft} (hd : d.registry.Sound) (o : Operation) :
    (d.addRoute o).value.1.registry.Sound := by
  rcases d.addRoute_cases o with ⟨-, e, he⟩ | ⟨htakes, ho⟩
  · rw [he]
    exact hd
  · rw [ho]
    have hmem := fun p => Registry.mem_place (o := o) (p := p) hd.ids
    constructor
    · exact Registry.nodup_place hd.ids
    · intro p hp
      rcases (hmem p).mp hp with rfl | ⟨hp', -⟩
      · exact htakes.checked
      · exact hd.checked p hp'
    · intro p hp s hs f hfs
      rcases (hmem p).mp hp with rfl | ⟨hp', -⟩
      · exact htakes.covered s hs f hfs
      · exact hd.covered p hp' s hs f hfs
    · intro p hp q hq hm ht
      -- the route of the new operation was free, and old ones had routes of their own before
      rcases (hmem p).mp hp with hpo | ⟨hp', -⟩ <;> rcases (hmem q).mp hq with hqo | ⟨hq', -⟩
      · rw [hpo, hqo]
      · subst hpo
        exact (htakes.free q hq' hm.symm ht.symm).symm
      · subst hqo
        exact htakes.free p hp' hm ht
      · exact hd.routes p hp' q hq' hm ht

/-- An operation that is replaced leaves its route to every id. -/
theorem routeFault_of_replaced {r : Registry} (hr : r.Sound) {o p q : Operation}
    (hp : p ∈ r.operations) (hid : p.id = o.id) (hm : q.method = p.method)
    (ht : q.template = p.template) (hne : ¬(o.method = p.method ∧ o.template = p.template)) :
    routeFault? ⟨Registry.place o r.operations⟩ q = none := by
  rw [routeFault_eq_none]
  intro x hx hxm hxt
  rw [hm] at hxm
  rw [ht] at hxt
  rcases (Registry.mem_place hr.ids).mp hx with rfl | ⟨hx, hxo⟩
  · exact absurd ⟨hxm, hxt⟩ hne
  · exact absurd ((hr.routes x hx p hp hxm hxt).trans hid) hxo

/-- The draft after a sequence of calls, taken or refused. -/
def addRoutes (d : Draft) (os : List Operation) : Draft :=
  os.foldl (fun d o => (d.addRoute o).value.1) d

theorem addRoutes_sound (d : Draft) (hd : d.registry.Sound) (os : List Operation) :
    (d.addRoutes os).registry.Sound := by
  induction os generalizing d with
  | nil => exact hd
  | cons o rest ih => exact ih _ (addRoute_sound hd o)

theorem new_addRoutes_sound (policy : Policy) (info : Docs.BasicInfo) (documentPath : String)
    (os : List Operation) : ((new policy info documentPath).addRoutes os).registry.Sound :=
  addRoutes_sound _ Registry.sound_empty os

theorem addRoute_policy (d : Draft) (o : Operation) : (d.addRoute o).value.1.policy = d.policy := by
  rcases d.addRoute_cases o with ⟨-, e, he⟩ | ⟨-, ho⟩
  · rw [he]
  · rw [ho]

theorem addRoutes_policy (d : Draft) (os : List Operation) :
    (d.addRoutes os).policy = d.policy := by
  induction os generalizing d with
  | nil => rfl
  | cons o rest ih => exact (ih _).trans (d.addRoute_policy o)

/-- Whatever calls came before, the registry is sound. A call is taken just if the draft takes the
operation, and else changes nothing. One that is taken puts the operation in the place of the one with
its id, whose route becomes free, or behind all others, and touches nothing else. -/
theorem addRoutes_registry (policy : Policy) (info : Docs.BasicInfo) (documentPath : String)
    (os : List Operation) :
    let d := (new policy info documentPath).addRoutes os
    d.registry.Sound ∧
    ∀ o, let call := (d.addRoute o).value
      (call.2 = .ok () ↔ d.Takes o) ∧
      (∀ e, call.2 = .error e → call.1 = d) ∧
      (call.2 = .ok () →
        (∀ i p, d.registry.operations[i]? = some p → p.id = o.id →
          call.1.registry.operations = d.registry.operations.set i o ∧
          ∀ q : Operation, q.method = p.method → q.template = p.template →
            ¬(o.method = p.method ∧ o.template = p.template) →
            routeFault? call.1.registry q = none) ∧
        ((∀ p ∈ d.registry.operations, p.id ≠ o.id) →
          call.1.registry.operations = d.registry.operations ++ [o])) := by
  intro d
  have hd : d.registry.Sound := new_addRoutes_sound policy info documentPath os
  refine ⟨hd, ?_⟩
  intro o call
  refine ⟨addRoute_ok, ?_⟩
  rcases d.addRoute_cases o with ⟨-, e, he⟩ | ⟨-, ho⟩
  · have hcall : call = (d, .error e) := he
    rw [hcall]
    exact ⟨fun _ _ => rfl, fun h => nomatch h⟩
  · have hcall : call = ({ d with registry := ⟨Registry.place o d.registry.operations⟩ }, .ok ()) :=
      ho
    rw [hcall]
    refine ⟨fun _ h => (nomatch h), fun _ => ⟨?_, ?_⟩⟩
    · intro i p hi hp
      refine ⟨Registry.place_set hd.ids hi hp, ?_⟩
      intro q hm ht hne
      exact routeFault_of_replaced hd (List.mem_of_getElem? hi) hp hm ht hne
    · exact Registry.place_append

/-- Behind two operations comes a third; the first of them moves to another path, and its old one can
be had by an operation with another id, but the path of the second cannot. -/
theorem users_routes_moved :
    let user : Operation := ⟨"getUser", Sample.get, "/users/\x7bid\x7d", Sample.getUser⟩
    let list : Operation := ⟨"listUsers", Sample.get, "/users", Sample.listUsers⟩
    let create : Operation := ⟨"createUser", Sample.post, "/users", Sample.createUser⟩
    let moved : Operation := { user with template := "/people/\x7bid\x7d" }
    let renamed : Operation := { user with id := "findUser" }
    let taken : Operation := { list with id := "allUsers" }
    let info : Docs.BasicInfo := ⟨"localhost", "Users", "1", [], "/"⟩
    let d := (new .default info "swagger.json").addRoutes [user, list]
    d.registry.operations = [user, list] ∧
    (d.addRoute create).value.1.registry.operations = [user, list, create] ∧
    (d.addRoute moved).value.1.registry.operations = [moved, list] ∧
    routeFault? d.registry renamed ≠ none ∧
    routeFault? (d.addRoute moved).value.1.registry renamed = none ∧
    ¬d.Takes taken ∧ (d.addRoute taken).value.1 = d := by
  intro user list create moved renamed taken info d
  have hd : d.registry.operations = [user, list] := by decide +kernel
  have hdraft : (new .default info "swagger.json").addRoutes [user, list] = d := rfl
  obtain ⟨-, hcalls⟩ := addRoutes_registry .default info "swagger.json" [user, list]
  rw [hdraft] at hcalls
  obtain ⟨-, -, hcreate⟩ := hcalls create
  obtain ⟨-, -, hmoved⟩ := hcalls moved
  obtain ⟨htakes, hrefused, -⟩ := hcalls taken
  obtain ⟨-, hlast⟩ := hcreate (by decide +kernel)
  obtain ⟨hplace, -⟩ := hmoved (by decide +kernel)
  obtain ⟨hset, hfree⟩ := hplace 0 user (by rw [hd]; rfl) rfl
  have hno : (d.addRoute taken).value.2 ≠ .ok () := by decide +kernel
  refine ⟨hd, ?_, ?_, by decide +kernel, hfree renamed rfl rfl (by decide),
    fun h => hno (htakes.mpr h), ?_⟩
  · rw [hlast (by rw [hd]; decide), hd]
    rfl
  · rw [hset, hd]
    rfl
  · cases h : (d.addRoute taken).value.2 with
    | ok => exact absurd h hno
    | error e => exact hrefused e h

end Draft

end Covenant
