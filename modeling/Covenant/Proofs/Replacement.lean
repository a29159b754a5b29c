import Covenant.Proofs.Selection

namespace Covenant.Registry

variable {r : Registry} {os : List Operation} {o p : Operation} {id : String}

/-- The warning that an operation was replaced. -/
def replacement (p : Operation) : Event := .operationReplaced p.id p.template

/-- The calls one by one, with the operation that each of them replaced. -/
def registerEach (r : Registry) : List Operation → Recorded (Registry × List (Option Operation))
  | [] => return (r, [])
  | o :: rest => do
    let (next, previous) ← r.register o
    let (last, more) ← next.registerEach rest
    return (last, previous :: more)

theorem register_eq (r : Registry) (o : Operation) :
    r.register o = { value := (⟨place o r.operations⟩, r.get? o.id),
                     events := (r.get? o.id).toList.map replacement } := by
  unfold register
  cases r.get? o.id with
  | none => rfl
  | some p => rfl

theorem get_register (r : Registry) (o : Operation) (id : String) :
    (r.register o).value.1.get? id = if id = o.id then some o else r.get? id := by
  rw [get?, get?, ← lookup_bindings, ← lookup_bindings, register_operations, bindings_place,
    Entries.lookup_put]
  simp

theorem get_eq_some_iff (hn : (r.operations.map (·.id)).Nodup) :
    r.get? id = some o ↔ o ∈ r.operations ∧ o.id = id := by
  constructor
  · intro h
    have hid : o.id = id := by simpa using List.find?_some h
    exact ⟨List.mem_of_find?_eq_some h, hid⟩
  · rintro ⟨ho, rfl⟩
    exact get_of_mem hn ho

theorem get_eq_none_iff : r.get? id = none ↔ id ∉ r.operations.map (·.id) := by
  simp [get?]

theorem getElem?_register (hn : (r.operations.map (·.id)).Nodup) {i : ℕ}
    (hi : r.operations[i]? = some p) :
    (r.register o).value.1.operations[i]? = some (if p.id = o.id then o else p) := by
  rw [register_operations]
  obtain ⟨hlt, -⟩ := List.getElem?_eq_some_iff.mp hi
  split
  · next hp =>
    rw [place_set hn hi hp, List.getElem?_set_self hlt]
  · next hp =>
    by_cases hnew : ∀ q ∈ r.operations, q.id ≠ o.id
    · rw [place_append hnew, List.getElem?_append_left hlt, hi]
    · push Not at hnew
      obtain ⟨q, hq, hqo⟩ := hnew
      obtain ⟨j, hj⟩ := List.mem_iff_getElem?.mp hq
      have hij : j ≠ i := by
        rintro rfl
        cases hi.symm.trans hj
        exact hp hqo
      rw [place_set hn hj hqo, List.getElem?_set_ne hij, hi]

theorem registerEach_registry (r : Registry) (os : List Operation) :
    (r.registerEach os).value.1 = r.registerAll os := by
  induction os generalizing r with
  | nil => rfl
  | cons o rest ih => exact ih _

theorem registerEach_replies (r : Registry) (os more : List Operation) :
    (r.registerEach (os ++ more)).value.2 =
      (r.registerEach os).value.2 ++ ((r.registerAll os).registerEach more).value.2 := by
  induction os generalizing r with
  | nil => rfl
  | cons o rest ih => exact congrArg (List.cons _) (ih _)

theorem length_registerEach (r : Registry) (os : List Operation) :
    (r.registerEach os).value.2.length = os.length := by
  induction os generalizing r with
  | nil => rfl
  | cons o rest ih => exact congrArg Nat.succ (ih _)

theorem registerEach_events (r : Registry) (os : List Operation) :
    (r.registerEach os).events = (r.registerEach os).value.2.reduceOption.map replacement := by
  induction os generalizing r with
  | nil => rfl
  | cons o rest ih =>
    simp only [registerEach, Recorded.events_bind, Recorded.value_bind, Recorded.events_pure,
      Recorded.value_pure, List.append_nil, ih, register_eq]
    cases r.get? o.id with
    | none => rfl
    | some p => rfl

theorem get_registerAll (os : List Operation) (id : String) :
    (empty.registerAll os).get? id = os.reverse.find? (·.id = id) := by
  rw [get?, ← lookup_bindings, bindings_registerAll, Entries.lookup_ofList, ← lookup_bindings,
    bindings, bindings, List.map_reverse]

/-- After any calls the ids stand in the order of their first call, each once and bound to the
operation of its last, which is what lookups find. Each call replied with the operation that the
last call before it for the same id had bound, and the log has a warning for each of these and
nothing else. A further call changes the binding of its own id, where it stands or behind all
others, and nothing else. -/
theorem register_history (os : List Operation) :
    let run := empty.registerEach os
    let r := run.value.1
    (r.operations.map (·.id) = (os.map (·.id)).eraseDups ∧
      ∀ o, o ∈ r.operations ↔ os.reverse.find? (·.id = o.id) = some o) ∧
    (run.value.2.length = os.length ∧
      (∀ before o after, os = before ++ o :: after →
        run.value.2[before.length]? = some (before.reverse.find? (·.id = o.id))) ∧
      run.events = run.value.2.reduceOption.map replacement) ∧
    ((∀ id o, r.get? id = some o ↔ o ∈ r.operations ∧ o.id = id) ∧
      (∀ o ∈ r.operations, r.contractOf o.id = .ok o.contract) ∧
      (∀ id, id ∉ os.map (·.id) →
        r.get? id = none ∧ r.contractOf id = .error (.unmappedOperation id)) ∧
      r.size = (os.map (·.id)).eraseDups.length) ∧
    ∀ o : Operation, let call := r.register o
      call.value.2 = r.get? o.id ∧
      call.events = call.value.2.toList.map replacement ∧
      (∀ id, call.value.1.get? id = if id = o.id then some o else r.get? id) ∧
      (∀ (i : ℕ) p, r.operations[i]? = some p →
        call.value.1.operations[i]? = some (if p.id = o.id then o else p)) ∧
      (o.id ∉ os.map (·.id) → call.value.1.operations = r.operations ++ [o]) := by
  intro run r
  have hr : r = empty.registerAll os := registerEach_registry empty os
  have hids : r.operations.map (·.id) = (os.map (·.id)).eraseDups := hr ▸ ids_registerAll os
  have hn : (r.operations.map (·.id)).Nodup := hr ▸ nodup_registerAll os
  have hnew : ∀ id, id ∉ os.map (·.id) → id ∉ r.operations.map (·.id) := by
    intro id hid
    rwa [hids, List.mem_eraseDups]
  refine ⟨⟨hids, fun o => hr ▸ mem_registerAll⟩, ⟨length_registerEach empty os, ?_,
    registerEach_events empty os⟩, ⟨fun id o => get_eq_some_iff hn, ?_, ?_, ?_⟩, ?_⟩
  · rintro before o after rfl
    have hlen := length_registerEach empty before
    rw [registerEach_replies, ← hlen, List.getElem?_append_right le_rfl, Nat.sub_self,
      ← get_registerAll]
    simp only [registerEach, Recorded.value_bind, Recorded.value_pure, register_eq]
    rfl
  · intro o ho
    rw [contractOf, get_of_mem hn ho]
  · intro id hid
    have hnone := get_eq_none_iff.mpr (hnew id hid)
    exact ⟨hnone, by rw [contractOf, hnone]⟩
  · rw [← hids, List.length_map]
    rfl
  · intro o call
    have hcall : call = _ := register_eq r o
    refine ⟨by rw [hcall], by rw [hcall], get_register r o,
      fun i p hi => getElem?_register hn hi, ?_⟩
    intro ho
    refine (register_operations r o).trans (place_append ?_)
    intro p hp hpo
    exact hnew o.id ho (hpo ▸ List.mem_map_of_mem hp)

end Covenant.Registry
