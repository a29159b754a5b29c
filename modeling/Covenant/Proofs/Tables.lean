import Covenant.Proofs.Members
import Mathlib.Data.List.Perm.Subperm

namespace Covenant

theorem find?_reverse_eq_some {α : Type} {p : α → Bool} {l : List α} {x : α} :
    l.reverse.find? p = some x ↔
      ∃ before after, l = before ++ x :: after ∧ p x = true ∧ ∀ y ∈ after, p y = false := by
  rw [List.find?_eq_some_iff_append]
  constructor
  · rintro ⟨hx, after, before, heq, hafter⟩
    refine ⟨before.reverse, after.reverse, ?_, hx, by simpa using hafter⟩
    rw [← List.reverse_reverse l, heq]
    simp
  · rintro ⟨before, after, rfl, hx, hafter⟩
    exact ⟨hx, after.reverse, before.reverse, by simp, by simpa using hafter⟩

namespace Entries

variable {κ β : Type} [BEq κ]

theorem ofList_append (pairs : List (κ × β)) (key : κ) (value : β) :
    ofList (pairs ++ [(key, value)]) = put key value (ofList pairs) := by
  simp [ofList]

variable [LawfulBEq κ]

theorem put_of_notMem {key : κ} {table : List (κ × β)} (h : key ∉ table.map (·.1)) (value : β) :
    put key value table = table ++ [(key, value)] := by
  induction table with
  | nil => rfl
  | cons e rest ih =>
    rw [List.map_cons, List.mem_cons, not_or] at h
    have hk : ¬(e.1 == key) = true := fun hk => h.1 (eq_of_beq hk).symm
    rw [put, if_neg hk, ih h.2, List.cons_append]

theorem keys_put_of_mem {key : κ} {table : List (κ × β)} (h : key ∈ table.map (·.1)) (value : β) :
    (put key value table).map (·.1) = table.map (·.1) := by
  induction table with
  | nil => cases h
  | cons e rest ih =>
    rw [put]
    split
    · rfl
    · next hk =>
      have hne : key ≠ e.1 := fun heq => hk (beq_iff_eq.mpr heq.symm)
      rw [List.map_cons, List.map_cons, ih ((List.mem_cons.mp h).resolve_left hne)]

/-- Entering one thing after the other, each under its own key, with a value that may depend on what
was entered before. -/
theorem nodup_foldl_put {α : Type} (key : α → κ) (value : List (κ × β) → α → β) (l : List α) :
    ((l.foldl (fun table x => put (key x) (value table x) table) []).map (·.1)).Nodup := by
  induction l using List.reverseRecOn with
  | nil => exact .nil
  | append_singleton l x ih =>
    rw [List.foldl_append, List.foldl_cons, List.foldl_nil]
    exact nodup_put _ _ ih

theorem keys_foldl_put {α : Type} (key : α → κ) (value : List (κ × β) → α → β) (l : List α) :
    (l.foldl (fun table x => put (key x) (value table x) table) []).map (·.1) =
      (l.map key).eraseDups := by
  induction l using List.reverseRecOn with
  | nil => rfl
  | append_singleton l x ih =>
    rw [List.foldl_append, List.foldl_cons, List.foldl_nil, List.map_append, List.eraseDups_append,
      ← ih]
    generalize l.foldl _ [] = table at ih ⊢
    by_cases hk : key x ∈ table.map (·.1)
    · rw [keys_put_of_mem hk]
      rw [ih, List.mem_eraseDups] at hk
      simp [List.removeAll, hk]
    · rw [put_of_notMem hk]
      rw [ih, List.mem_eraseDups] at hk
      simp [List.removeAll, hk, List.eraseDups_cons]

theorem nodup_ofList (pairs : List (κ × β)) : ((ofList pairs).map (·.1)).Nodup :=
  nodup_foldl_put (·.1) (fun _ e => e.2) pairs

theorem keys_ofList (pairs : List (κ × β)) :
    (ofList pairs).map (·.1) = (pairs.map (·.1)).eraseDups :=
  keys_foldl_put (·.1) (fun _ e => e.2) pairs

theorem mem_of_mem_ofList {pairs : List (κ × β)} {e : κ × β} (h : e ∈ ofList pairs) : e ∈ pairs := by
  induction pairs using List.reverseRecOn with
  | nil => cases h
  | append_singleton pairs last ih =>
    rw [ofList_append] at h
    rcases mem_put h with rfl | h
    · simp
    · exact List.mem_append_left _ (ih h)

theorem lookup_ofList (pairs : List (κ × β)) (k : κ) :
    (ofList pairs).lookup k = pairs.reverse.lookup k := by
  induction pairs using List.reverseRecOn with
  | nil => rfl
  | append_singleton pairs e ih =>
    rw [ofList_append, lookup_put, ih, List.reverse_append, List.reverse_singleton,
      List.singleton_append, lookup_cons_ite]

/-- A key has a value just if no pair behind the last one with this value has the key. -/
theorem lookup_ofList_eq_some {pairs : List (κ × β)} {k : κ} {v : β} :
    (ofList pairs).lookup k = some v ↔
      ∃ before after, pairs = before ++ (k, v) :: after ∧ k ∉ after.map (·.1) := by
  have hkeys : ∀ l : List (κ × β), (∀ e ∈ l, (k != e.1) = true) ↔ k ∉ l.map (·.1) := by
    intro l
    simp only [bne_iff_ne, List.mem_map, not_exists, not_and]
    exact ⟨fun h e he hk => h e he hk.symm, fun h e he hk => h e he hk.symm⟩
  rw [lookup_ofList, List.lookup_eq_some_iff]
  simp only [hkeys]
  constructor
  · rintro ⟨after, before, heq, hafter⟩
    refine ⟨before.reverse, after.reverse, ?_, by simpa using hafter⟩
    rw [← List.reverse_reverse pairs, heq]
    simp
  · rintro ⟨before, after, rfl, hafter⟩
    exact ⟨after.reverse, before.reverse, by simp, by simpa using hafter⟩

theorem ofList_of_nodup {pairs : List (κ × β)} (h : (pairs.map (·.1)).Nodup) :
    ofList pairs = pairs := by
  induction pairs using List.reverseRecOn with
  | nil => rfl
  | append_singleton pairs e ih =>
    rw [List.map_append, List.nodup_append] at h
    obtain ⟨hpairs, -, hnew⟩ := h
    rw [ofList_append, ih hpairs]
    exact put_of_notMem (fun hk => hnew _ hk _ List.mem_cons_self rfl) e.2

theorem filterMap_lookup {keys : List κ} {table : List (κ × β)} (hn : keys.Nodup)
    (h : (table.map (·.1)).Sublist keys) :
    keys.filterMap (fun k => (table.lookup k).map (k, ·)) = table := by
  induction keys generalizing table with
  | nil => rw [List.filterMap_nil, List.map_eq_nil_iff.mp (List.sublist_nil.mp h)]
  | cons k rest ih =>
    obtain ⟨hk, hrest⟩ := List.nodup_cons.mp hn
    rcases List.sublist_cons_iff.mp h with h | ⟨more, hmore, h⟩
    · have hnone : table.lookup k = none := lookup_eq_none fun hmem => hk (h.subset hmem)
      rw [List.filterMap_cons_none (by rw [hnone]; rfl), ih hrest h]
    · obtain ⟨⟨key, v⟩, table, rfl, rfl, rfl⟩ := List.map_eq_cons_iff.mp hmore
      rw [List.filterMap_cons_some (by rw [List.lookup_cons_self]; rfl)]
      refine congrArg _ ((List.filterMap_congr ?_).trans (ih hrest h))
      intro f hf
      have hne : ¬(f == key) = true := fun heq => hk (eq_of_beq heq ▸ hf)
      rw [lookup_cons_ite, if_neg hne]

/-- A table with each key once is told by its keys, in order, and their values. -/
theorem eq_of_lookup {a b : List (κ × β)} (hn : (a.map (·.1)).Nodup)
    (hkeys : a.map (·.1) = b.map (·.1)) (h : ∀ k, a.lookup k = b.lookup k) : a = b := by
  have ha := filterMap_lookup hn (List.Sublist.refl _)
  have hb := filterMap_lookup (hkeys ▸ hn) (List.Sublist.refl (b.map (·.1)))
  rw [← ha, ← hb, hkeys]
  simp only [h]

/-- Tables with each key once have the same content just if every key has the same value in both. -/
theorem sameContent_iff [BEq β] [LawfulBEq β] {a b : List (κ × β)} (ha : (a.map (·.1)).Nodup)
    (hb : (b.map (·.1)).Nodup) : sameContent a b = true ↔ ∀ k, a.lookup k = b.lookup k := by
  have hcontent : sameContent a b = true ↔ a.length = b.length ∧
      ∀ k v, a.lookup k = some v → b.lookup k = some v := by
    rw [sameContent, Bool.and_eq_true, beq_iff_eq, List.all_eq_true]
    simp only [beq_iff_eq, Prod.forall, lookup_eq_some_iff ha]
  rw [hcontent]
  constructor
  · rintro ⟨hlength, hvalues⟩ k
    -- the keys of the first are among those of the second, and they are as many
    have hsub : a.map (·.1) ⊆ b.map (·.1) := by
      intro x hx
      obtain ⟨v, hv⟩ := Option.isSome_iff_exists.mp (lookup_isSome.mpr hx)
      exact lookup_isSome.mp (Option.isSome_iff_exists.mpr ⟨v, hvalues x v hv⟩)
    have hperm := (List.subperm_of_subset ha hsub).perm_of_length_le (by simp [hlength])
    cases hk : a.lookup k with
    | some v => exact (hvalues k v hk).symm
    | none =>
      have hnot : k ∉ b.map (·.1) := by
        rw [← hperm.mem_iff, ← lookup_isSome, hk]
        simp
      exact (lookup_eq_none hnot).symm
  · intro h
    have hkeys : (a.map (·.1)).Perm (b.map (·.1)) := by
      rw [List.perm_ext_iff_of_nodup ha hb]
      intro k
      rw [← lookup_isSome, h, lookup_isSome]
    exact ⟨by simpa using hkeys.length_eq, fun k v hv => h k ▸ hv⟩

end Entries

end Covenant
