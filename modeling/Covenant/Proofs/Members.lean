import Covenant.Entries
import Covenant.Json.Overlay
import Mathlib.Data.List.Induction
import Mathlib.Data.List.Nodup

namespace Covenant

namespace Entries

variable {κ β : Type} [BEq κ]

theorem lookup_cons_ite (k key : κ) (v : β) (rest : List (κ × β)) :
    ((key, v) :: rest).lookup k = if k == key then some v else rest.lookup k := by
  rw [List.lookup_cons]
  cases k == key <;> rfl

theorem lookup_map {γ : Type} (g : β → γ) (table : List (κ × β)) (k : κ) :
    (table.map fun e => (e.1, g e.2)).lookup k = (table.lookup k).map g := by
  induction table with
  | nil => rfl
  | cons e rest ih =>
    rw [List.map_cons, lookup_cons_ite, ih, lookup_cons_ite]
    split <;> rfl

variable [LawfulBEq κ]

theorem lookup_eq_some_iff {table : List (κ × β)} (hn : (table.map (·.1)).Nodup) {k : κ} {v : β} :
    table.lookup k = some v ↔ (k, v) ∈ table := by
  induction table with
  | nil => simp
  | cons e rest ih =>
    obtain ⟨key, w⟩ := e
    rw [List.map_cons, List.nodup_cons] at hn
    by_cases hk : k = key
    · subst hk
      have hrest : (k, v) ∉ rest := fun h => hn.1 (List.mem_map_of_mem (f := (·.1)) h)
      simp [hrest, eq_comm]
    · simp [lookup_cons_ite, hk, ih hn.2]

theorem lookup_eq_none {table : List (κ × β)} {k : κ} (h : k ∉ table.map (·.1)) :
    table.lookup k = none := by
  rw [← Option.not_isSome_iff_eq_none, lookup_isSome]
  exact h

theorem lookup_filter (p : κ → Bool) (table : List (κ × β)) (k : κ) :
    (table.filter fun e => p e.1).lookup k = if p k then table.lookup k else none := by
  induction table with
  | nil => simp
  | cons e rest ih =>
    obtain ⟨key, v⟩ := e
    by_cases hk : k = key
    · subst hk
      cases hp : p k <;> simp [hp, ih]
    · cases hp : p key <;> simp [hp, ih, lookup_cons_ite, hk]

theorem lookup_congr {l l' : List (κ × β)} {k : κ}
    (h : l.filter (·.1 == k) = l'.filter (·.1 == k)) : l.lookup k = l'.lookup k := by
  have hown : ∀ t : List (κ × β), (t.filter (·.1 == k)).lookup k = t.lookup k := fun t => by
    simpa using lookup_filter (· == k) t k
  rw [← hown l, h, hown l']

theorem mem_put {key : κ} {value : β} {table : List (κ × β)} {e : κ × β}
    (h : e ∈ put key value table) : e = (key, value) ∨ e ∈ table := by
  induction table with
  | nil => simpa [put] using h
  | cons e' rest ih =>
    rw [put] at h
    split at h
    · next hk =>
      rw [eq_of_beq hk, List.mem_cons] at h
      exact h.imp_right (List.mem_cons_of_mem _)
    · rcases List.mem_cons.mp h with rfl | h
      · exact .inr List.mem_cons_self
      · exact (ih h).imp_right (List.mem_cons_of_mem _)

end Entries

namespace Json

namespace Members

/-- Every key once, in order. -/
def Ordered (m : Members) : Prop := (m.map (·.1)).Pairwise (· < ·)

theorem Ordered.nodup {m : Members} (h : m.Ordered) : (m.map (·.1)).Nodup := by
  refine List.Pairwise.imp ?_ h
  rintro a _ hlt rfl
  exact String.lt_irrefl a hlt

theorem get_insert (key k : String) (v : Value) (m : Members) :
    (insert key v m).get? k = if k = key then some v else m.get? k := by
  unfold get?
  induction m with
  | nil => simp [insert, Entries.lookup_cons_ite]
  | cons e rest ih =>
    obtain ⟨key', w⟩ := e
    rw [insert]
    split
    · next h =>
      subst h
      by_cases hk : k = key <;> simp [hk, Entries.lookup_cons_ite]
    · next h =>
      split
      · simp [Entries.lookup_cons_ite]
      · rw [Entries.lookup_cons_ite, ih, Entries.lookup_cons_ite]
        by_cases hk : k = key
        · simp [hk, h]
        · simp [hk]

theorem mem_keys_insert {key k : String} {v : Value} {m : Members} :
    k ∈ (insert key v m).map (·.1) ↔ k = key ∨ k ∈ m.map (·.1) := by
  induction m with
  | nil => simp [insert]
  | cons e rest ih =>
    rw [insert]
    split
    · next h => simp [h]
    · split
      · simp
      · rw [List.map_cons, List.mem_cons, ih, List.map_cons, List.mem_cons]
        exact or_left_comm

theorem ordered_insert {m : Members} (h : m.Ordered) (key : String) (v : Value) :
    (insert key v m).Ordered := by
  induction m with
  | nil => simp [insert, Ordered]
  | cons e rest ih =>
    have hrest := List.pairwise_cons.mp h
    rw [insert]
    split
    · next hk =>
      subst hk
      exact h
    · split
      · next hlt =>
        refine List.pairwise_cons.mpr ⟨?_, h⟩
        intro k hk
        rcases List.mem_cons.mp hk with rfl | hk
        · exact hlt
        · exact String.lt_trans hlt (hrest.1 k hk)
      · next hne hlt =>
        refine List.pairwise_cons.mpr ⟨?_, ih hrest.2⟩
        intro k hk
        rcases mem_keys_insert.mp hk with rfl | hk
        · exact Std.lt_of_le_of_ne (String.not_lt.mp hlt) (Ne.symm hne)
        · exact hrest.1 k hk

theorem mem_insert {key : String} {v : Value} {m : Members} {e : String × Value}
    (h : e ∈ insert key v m) : e = (key, v) ∨ e ∈ m := by
  induction m with
  | nil => exact .inl (List.mem_singleton.mp h)
  | cons e' rest ih =>
    rw [insert] at h
    split at h
    · exact (List.mem_cons.mp h).imp_right (List.mem_cons_of_mem _)
    · split at h
      · exact List.mem_cons.mp h
      · rcases List.mem_cons.mp h with rfl | h
        · exact .inr List.mem_cons_self
        · exact (ih h).imp_right (List.mem_cons_of_mem _)

theorem insert_of_get {key : String} {v : Value} {m : Members} (hm : m.Ordered)
    (hv : m.get? key = some v) : insert key v m = m := by
  induction m with
  | nil => cases hv
  | cons e rest ih =>
    obtain ⟨k, w⟩ := e
    obtain ⟨hfirst, hrest⟩ := List.pairwise_cons.mp hm
    rw [get?, Entries.lookup_cons_ite] at hv
    rw [insert]
    by_cases hk : key = k
    · rw [if_pos (beq_iff_eq.mpr hk), Option.some.injEq] at hv
      rw [if_pos hk, hk, hv]
    · rw [if_neg (mt beq_iff_eq.mp hk)] at hv
      have hmem : key ∈ rest.map (·.1) :=
        Entries.lookup_isSome.mp (Option.isSome_iff_exists.mpr ⟨v, hv⟩)
      have hlt : ¬key < k := String.lt_asymm (hfirst key hmem)
      rw [if_neg hk, if_neg hlt, ih hrest hv]

theorem ofList_append (pairs : List (String × Value)) (k : String) (v : Value) :
    ofList (pairs ++ [(k, v)]) = insert k v (ofList pairs) := by
  simp [ofList]

theorem ordered_ofList (pairs : List (String × Value)) : (ofList pairs).Ordered := by
  induction pairs using List.reverseRecOn with
  | nil => exact .nil
  | append_singleton pairs e ih =>
    rw [ofList_append]
    exact ordered_insert ih e.1 e.2

theorem mem_keys_ofList {pairs : List (String × Value)} {k : String} :
    k ∈ (ofList pairs).map (·.1) ↔ k ∈ pairs.map (·.1) := by
  induction pairs using List.reverseRecOn with
  | nil => simp [ofList]
  | append_singleton pairs e ih =>
    rw [ofList_append, mem_keys_insert, ih, List.map_append, List.mem_append]
    simp [or_comm]

theorem get_ofList_reverse (pairs : List (String × Value)) (k : String) :
    (ofList pairs).get? k = pairs.reverse.lookup k := by
  induction pairs using List.reverseRecOn with
  | nil => rfl
  | append_singleton pairs e ih =>
    rw [ofList_append, get_insert, ih, List.reverse_append, List.reverse_singleton,
      List.singleton_append, Entries.lookup_cons_ite]
    simp only [beq_iff_eq]

theorem get_ofList {pairs : List (String × Value)} (hn : (pairs.map (·.1)).Nodup) (k : String) :
    (ofList pairs).get? k = pairs.lookup k := by
  have hr : (pairs.reverse.map (·.1)).Nodup := by
    rw [List.map_reverse]
    exact List.nodup_reverse.mpr hn
  rw [get_ofList_reverse]
  apply Option.ext
  intro v
  rw [Entries.lookup_eq_some_iff hr, List.mem_reverse, Entries.lookup_eq_some_iff hn]

theorem keys_ofList {pairs : List (String × Value)} (hn : (pairs.map (·.1)).Nodup) :
    ((ofList pairs).map (·.1)).Perm (pairs.map (·.1)) :=
  (List.perm_ext_iff_of_nodup (ordered_ofList pairs).nodup hn).mpr fun _ => mem_keys_ofList

theorem sortedMembers_eq_map (m : Members) :
    Value.sorted.sortedMembers m = m.map fun e => (e.1, e.2.sorted) := by
  induction m with
  | nil => rfl
  | cons e rest ih => rw [Value.sorted.sortedMembers, ih, List.map_cons]

theorem keys_sorted (m : Members) : (m.map fun e => (e.1, e.2.sorted)).map (·.1) = m.map (·.1) := by
  rw [List.map_map]
  rfl

end Members

end Json

end Covenant
