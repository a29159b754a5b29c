import Covenant.Proofs.Registration
import Covenant.Sample.Users
import Mathlib.Data.Finset.Card
import Mathlib.Data.List.Induction

namespace Covenant

namespace Entries

variable {κ β : Type} [BEq κ] [LawfulBEq κ]

theorem length_flatMap_put {γ : Type} (items : β → List γ) (key : κ) (value : β)
    (table : List (κ × β)) :
    ((put key value table).flatMap (items ·.2)).length +
        (((table.lookup key).map items).getD []).length =
      (table.flatMap (items ·.2)).length + (items value).length := by
  induction table with
  | nil => simp [put]
  | cons e rest ih =>
    obtain ⟨k, v⟩ := e
    by_cases hk : k = key
    · subst hk
      simp only [put, BEq.rfl, if_true, List.flatMap_cons, List.length_append,
        List.lookup_cons_self, Option.map_some, Option.getD_some]
      omega
    · have hb : (key == k) = false := beq_eq_false_iff_ne.mpr (Ne.symm hk)
      have hb' : (k == key) = false := beq_eq_false_iff_ne.mpr hk
      simp only [put, hb', Bool.false_eq_true, if_false, List.flatMap_cons, List.length_append,
        List.lookup_cons, hb]
      omega

theorem length_put (key : κ) (value : β) (table : List (κ × β)) :
    (put key value table).length =
      table.length + if (table.lookup key).isSome = true then 0 else 1 := by
  have h := length_flatMap_put (fun v => [v]) key value table
  simp only [← List.map_eq_flatMap, List.length_map] at h
  cases hk : table.lookup key with
  | none => simpa [hk] using h
  | some v => simpa [hk] using h

end Entries

namespace Docs

/-- The place of an operation in a document. -/
def slot (o : Operation) : String × String := (o.template, Text.lowerAscii o.method.text)

/-- The entry under a template and a method. -/
def entryAt? (paths : List (String × List (String × Endpoint))) (k : String × String) :
    Option Endpoint := (paths.lookup k.1).bind (·.lookup k.2)

def entryCount (paths : List (String × List (String × Endpoint))) : ℕ :=
  (paths.flatMap (·.2)).length

variable {paths : List (String × List (String × Endpoint))} {ops : List Operation}

theorem entryAt_addPath (o : Operation) (k : String × String) :
    entryAt? (addPath paths o) k =
      if k = slot o then some (Endpoint.ofOperation o) else entryAt? paths k := by
  obtain ⟨t, m⟩ := k
  unfold entryAt? addPath
  rw [Entries.lookup_put]
  by_cases ht : t = o.template
  · subst ht
    rw [if_pos BEq.rfl, Option.bind_some, Entries.lookup_put]
    by_cases hm : m = Text.lowerAscii o.method.text
    · simp [hm, slot]
    · cases hp : paths.lookup o.template <;> simp [hm, slot]
  · simp [ht, slot]

theorem entryAt_foldl (ops : List Operation) (k : String × String) :
    entryAt? (ops.foldl addPath []) k =
      (ops.reverse.find? (slot · = k)).map Endpoint.ofOperation := by
  -- the last operation is entered over all others, so the induction goes from the end
  induction ops using List.reverseRecOn with
  | nil => rfl
  | append_singleton ops o ih =>
    rw [List.foldl_append, List.foldl_cons, List.foldl_nil, entryAt_addPath, ih]
    rw [List.reverse_append, List.reverse_singleton, List.singleton_append, List.find?_cons]
    by_cases hk : k = slot o
    · simp [hk]
    · have hk' : slot o ≠ k := Ne.symm hk
      simp [hk, hk']

theorem entryAt_isSome {k : String × String} :
    (entryAt? (ops.foldl addPath []) k).isSome = true ↔ k ∈ ops.map slot := by
  rw [entryAt_foldl, Option.isSome_map, List.find?_isSome]
  simp

theorem entryCount_addPath (o : Operation) :
    entryCount (addPath paths o) =
      entryCount paths + if (entryAt? paths (slot o)).isSome = true then 0 else 1 := by
  unfold entryCount addPath entryAt? slot
  generalize Text.lowerAscii o.method.text = m
  have hsum := fun methods => Entries.length_flatMap_put id o.template
    (Entries.put m (Endpoint.ofOperation o) methods) paths
  cases hp : paths.lookup o.template with
  | none => simpa [hp, Entries.length_put] using hsum []
  | some methods =>
    have h := hsum methods
    simp only [hp, id, Entries.length_put, Option.map_some, Option.getD_some] at h
    dsimp only [Option.getD_some, Option.bind_some]
    omega

theorem entryCount_foldl (ops : List Operation) :
    entryCount (ops.foldl addPath []) = (ops.map slot).toFinset.card := by
  induction ops using List.reverseRecOn with
  | nil => rfl
  | append_singleton ops o ih =>
    rw [List.foldl_append, List.foldl_cons, List.foldl_nil, entryCount_addPath, ih]
    have hs : ((ops ++ [o]).map slot).toFinset = insert (slot o) (ops.map slot).toFinset := by
      ext k
      simp
    rw [hs]
    by_cases ho : slot o ∈ ops.map slot
    · rw [if_pos (entryAt_isSome.mpr ho)]
      rw [Finset.insert_eq_of_mem (List.mem_toFinset.mpr ho), Nat.add_zero]
    · rw [if_neg (mt entryAt_isSome.mp ho)]
      rw [Finset.card_insert_of_notMem (mt List.mem_toFinset.mp ho)]

/-- No two operations with different ids have one place. -/
def Distinct (ops : List Operation) : Prop :=
  ∀ o ∈ ops, ∀ p ∈ ops, slot o = slot p → o.id = p.id

theorem entries_present_iff :
    (∀ o ∈ ops, ∃ e, entryAt? (ops.foldl addPath []) (slot o) = some e ∧ e.operation = o.id) ↔
      Distinct ops := by
  constructor
  · intro h o ho p hp hs
    obtain ⟨e, he, heo⟩ := h o ho
    obtain ⟨e', he', hep⟩ := h p hp
    rw [← hs, he, Option.some.injEq] at he'
    rw [← heo, ← hep, he']
  · intro h o ho
    have hsome := entryAt_isSome.mpr (List.mem_map_of_mem (f := slot) ho)
    obtain ⟨e, he⟩ := Option.isSome_iff_exists.mp hsome
    refine ⟨e, he, ?_⟩
    rw [entryAt_foldl, Option.map_eq_some_iff] at he
    obtain ⟨p, hp, rfl⟩ := he
    have hps : slot p = slot o := by simpa using List.find?_some hp
    have hmem : p ∈ ops := List.mem_reverse.mp (List.mem_of_find?_eq_some hp)
    exact h p hmem o ho hps

theorem entryCount_eq_length_iff (hn : (ops.map (·.id)).Nodup) :
    entryCount (ops.foldl addPath []) = ops.length ↔ Distinct ops := by
  have hops : ops.Nodup := List.Nodup.of_map _ hn
  have hid : ∀ o ∈ ops, ∀ p ∈ ops, o.id = p.id → o = p :=
    fun o ho p hp h => List.inj_on_of_nodup_map hn ho hp h
  rw [entryCount_foldl, List.card_toFinset]
  constructor
  · intro h o ho p hp hs
    have hlen : (ops.map slot).dedup.length = (ops.map slot).length := by
      rw [h, List.length_map]
    have hdedup := (List.dedup_sublist (ops.map slot)).eq_of_length hlen
    have hslots : (ops.map slot).Nodup := List.dedup_eq_self.mp hdedup
    rw [List.inj_on_of_nodup_map hslots ho hp hs]
  · intro h
    have hslots : (ops.map slot).Nodup :=
      hops.map_on fun o ho p hp hs => hid o ho p hp (h o ho p hp hs)
    rw [List.dedup_eq_self.mpr hslots, List.length_map]

end Docs

namespace Service

open Docs

/-- In the document of a service an entry shows the last operation of its place. Every operation is
shown, and there are as many entries as operations, just if no two operations of one template have
methods that are the same in lower case. -/
theorem document_entries (policy : Policy) (info : BasicInfo) (documentPath : String)
    (os : List Operation) (basic : BasicInfo) :
    let s := ((Draft.new policy info documentPath).addRoutes os).build.value
    let ops := s.registry.operations
    let paths := (s.document basic).value.paths
    (∀ k, entryAt? paths k = (ops.reverse.find? (slot · = k)).map Endpoint.ofOperation) ∧
    entryCount paths = (ops.map slot).toFinset.card ∧
    ((∀ o ∈ ops, ∃ e, entryAt? paths (slot o) = some e ∧ e.operation = o.id) ↔ Distinct ops) ∧
    (entryCount paths = ops.length ↔ Distinct ops) := by
  intro s ops paths
  have hsound : s.registry.Sound := Draft.new_addRoutes_sound policy info documentPath os
  have hpaths : paths = ops.foldl addPath [] := rfl
  rw [hpaths]
  exact ⟨entryAt_foldl ops, entryCount_foldl ops, entries_present_iff,
    entryCount_eq_length_iff hsound.ids⟩

/-- Two methods that differ by case are two operations of the service and one entry of its document,
from which the first is lost. -/
theorem document_loses_operation :
    let a : Operation := ⟨"a", ⟨"GET", by decide⟩, "/x", Sample.listUsers⟩
    let b : Operation := ⟨"b", ⟨"get", by decide⟩, "/x", Sample.listUsers⟩
    let basic : BasicInfo := ⟨"localhost", "Users", "1", [], "/"⟩
    let s := ((Draft.new .default basic "swagger.json").addRoutes [a, b]).build.value
    let paths := (s.document basic).value.paths
    s.registry.operations = [a, b] ∧ entryCount paths = 1 ∧ slot a = ("/x", "get") ∧
      (entryAt? paths (slot a)).map (·.operation) = some "b" := by
  intro a b basic s paths
  have hget : Text.lowerAscii "GET" = "get" := by decide +kernel
  have hget' : Text.lowerAscii "get" = "get" := by decide +kernel
  have ha : slot a = ("/x", "get") := congrArg (Prod.mk "/x") hget
  have hb : slot b = ("/x", "get") := congrArg (Prod.mk "/x") hget'
  have hpaths : paths = [a, b].foldl addPath [] := rfl
  refine ⟨rfl, ?_, ha, ?_⟩
  · rw [hpaths, entryCount_foldl]
    simp [ha, hb]
  · rw [hpaths, entryAt_foldl]
    simp [ha, hb, b, Endpoint.ofOperation]

end Service

end Covenant
