import Covenant.Proofs.Definitions
import Covenant.Proofs.Reachability

namespace Covenant.Registry

variable {r : Registry} {os : List Operation} {o : Operation} {method : Method} {path : String}
  {captures : Captures}

theorem registerAll_concat (r : Registry) (os : List Operation) (o : Operation) :
    (r.registerAll (os ++ [o])).operations = place o (r.registerAll os).operations := by
  rw [registerAll, List.foldl_append]
  exact register_operations _ o

theorem bindings_registerAll (os : List Operation) :
    bindings (empty.registerAll os).operations = Entries.ofList (bindings os) := by
  induction os using List.reverseRecOn with
  | nil => rfl
  | append_singleton os o ih =>
    rw [registerAll_concat, bindings_place, ih, ← Entries.ofList_append]
    simp [bindings]

theorem ids_registerAll (os : List Operation) :
    (empty.registerAll os).operations.map (·.id) = (os.map (·.id)).eraseDups := by
  rw [← keys_bindings, bindings_registerAll, Entries.keys_ofList, keys_bindings]

theorem nodup_registerAll (os : List Operation) :
    ((empty.registerAll os).operations.map (·.id)).Nodup := by
  rw [← keys_bindings, bindings_registerAll]
  exact Entries.nodup_ofList _

theorem mem_registerAll :
    o ∈ (empty.registerAll os).operations ↔ os.reverse.find? (·.id = o.id) = some o := by
  rw [mem_iff_lookup (nodup_registerAll os), bindings_registerAll, Entries.lookup_ofList,
    ← lookup_bindings, bindings, bindings, List.map_reverse]

theorem resolve_eq_none :
    r.resolve? method path = none ↔
      ∀ o ∈ r.operations, o.method = method → o.captures? path = none := by
  rw [resolve?, best_eq_none, candidates_eq, List.filterMap_eq_nil_iff]
  simp only [candidate?, ite_eq_right_iff, Option.map_eq_none_iff]

/-- The operation at the place takes the request, and any other that takes it has fewer literal
segments, or comes later and has as many. -/
structure Preferred (r : Registry) (method : Method) (path : String) (i : ℕ) (o : Operation)
    (captures : Captures) : Prop where
  bound : r.operations[i]? = some o
  sameMethod : o.method = method
  taken : o.captures? path = some captures
  others : ∀ j q, j ≠ i → r.operations[j]? = some q → q.method = method →
    (q.captures? path).isSome = true →
    q.literalCount < o.literalCount ∨ q.literalCount = o.literalCount ∧ i < j

theorem resolve_eq_some_place :
    r.resolve? method path = some (o, captures) ↔ ∃ i, r.Preferred method path i o captures := by
  rw [resolve_eq_some_iff]
  constructor
  · rintro ⟨hm, hc, before, after, hops, hbefore, hafter⟩
    refine ⟨before.length, by simp [hops], hm, hc, ?_⟩
    intro j q hj hq hqm hqc
    rw [hops] at hq
    rcases Nat.lt_or_gt_of_ne hj with hlt | hgt
    · rw [List.getElem?_append_left hlt] at hq
      exact .inl (hbefore q (List.mem_of_getElem? hq) hqm hqc)
    · obtain ⟨k, rfl⟩ := Nat.exists_eq_add_of_lt hgt
      have hk : after[k]? = some q := by
        rw [← hq, List.getElem?_append_right (by omega)]
        simp [Nat.add_assoc]
      have hle := hafter q (List.mem_of_getElem? hk) hqm hqc
      omega
  · rintro ⟨i, hi, hm, hc, hothers⟩
    obtain ⟨hlt, rfl⟩ := List.getElem?_eq_some_iff.mp hi
    refine ⟨hm, hc, r.operations.take i, r.operations.drop (i + 1), ?_, ?_, ?_⟩
    · rw [← List.drop_eq_getElem_cons hlt, List.take_append_drop]
    · intro q hq hqm hqc
      obtain ⟨j, hj⟩ := List.mem_iff_getElem?.mp hq
      rw [List.getElem?_take] at hj
      split at hj
      · have := hothers j q (by omega) hj hqm hqc
        omega
      · cases hj
    · intro q hq hqm hqc
      obtain ⟨j, hj⟩ := List.mem_iff_getElem?.mp hq
      rw [List.getElem?_drop] at hj
      have := hothers (i + 1 + j) q (by omega) hj hqm hqc
      omega

/-- In a registry that calls have filled, a request goes nowhere just if no operation that is bound
takes it, and otherwise to the one that is preferred, with its own captures. The ids stand in the
order of their first calls, each bound to the operation of its last call; a further call for an id
puts its operation in the place of the one before. -/
theorem resolution (os : List Operation) (method : Method) (path : String) :
    let r := empty.registerAll os
    (r.resolve? method path = none ↔
      ∀ o ∈ r.operations, o.method = method → o.captures? path = none) ∧
    (∀ o captures, r.resolve? method path = some (o, captures) ↔
      ∃ i, r.Preferred method path i o captures) ∧
    r.operations.map (·.id) = (os.map (·.id)).eraseDups ∧
    (∀ o, o ∈ r.operations ↔ os.reverse.find? (·.id = o.id) = some o) ∧
    ∀ i o p, r.operations[i]? = some p → p.id = o.id →
      (r.register o).value.1.operations = r.operations.set i o := by
  intro r
  refine ⟨resolve_eq_none, fun _ _ => resolve_eq_some_place, ids_registerAll os,
    fun _ => mem_registerAll, ?_⟩
  intro i o p hi hp
  rw [register_operations, place_set (nodup_registerAll os) hi hp]

open Sample (listUsers userById userByName) in
/-- An operation that is registered again keeps its place and is found by its new template only,
where it has more literal segments than the one before it; two templates that differ by the name of
a parameter go by their places. -/
theorem overlapping_templates_resolved :
    let moved : Operation := ⟨"me", Sample.get, "/users/me", listUsers⟩
    let r := empty.registerAll [userById, { moved with template := "/me" }, userByName, moved]
    r.operations = [userById, moved, userByName] ∧
    r.resolve? Sample.get "/me" = none ∧
    r.resolve? Sample.get "/users/me" = some (moved, []) ∧
    (∃ i, r.Preferred Sample.get "/users/me" i moved []) ∧
    ∃ i, r.Preferred Sample.get "/users/7" i userById [("id", "7")] := by
  intro moved r
  have hagree := resolution [userById, { moved with template := "/me" }, userByName, moved]
  have hme : r.resolve? Sample.get "/users/me" = some (moved, []) := by decide +kernel
  have hother : r.resolve? Sample.get "/users/7" = some (userById, [("id", "7")]) := by
    decide +kernel
  refine ⟨rfl, ?_, hme, ?_, ?_⟩
  · exact (hagree Sample.get "/me").1.mpr (by decide +kernel)
  · exact ((hagree Sample.get "/users/me").2.1 moved []).mp hme
  · exact ((hagree Sample.get "/users/7").2.1 userById _).mp hother

end Covenant.Registry
