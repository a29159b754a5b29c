namespace Covenant.Entries

variable {κ β : Type} [BEq κ]

/-- A key that is entered again keeps its place and takes the new value. -/
def put (key : κ) (value : β) : List (κ × β) → List (κ × β)
  | [] => [(key, value)]
  | (k, v) :: rest => if k == key then (k, value) :: rest else (k, v) :: put key value rest

def ofList (pairs : List (κ × β)) : List (κ × β) :=
  pairs.foldl (fun table (k, v) => put k v table) []

theorem lookup_put [LawfulBEq κ] (key k : κ) (value : β) (table : List (κ × β)) :
    (put key value table).lookup k = if k == key then some value else table.lookup k := by
  induction table with
  | nil => by_cases h : k = key <;> simp [put, h]
  | cons e rest ih =>
    obtain ⟨k', v'⟩ := e
    by_cases h : k' = key
    · subst h
      by_cases hk : k = k' <;> simp [put, List.lookup_cons, beq_eq_false_iff_ne.mpr, hk]
    · by_cases hk : k = k'
      · subst hk
        simp [put, h]
      · have hk' : (k == k') = false := beq_eq_false_iff_ne.mpr hk
        simp [put, List.lookup_cons, h, hk', ih]

theorem lookup_isSome [LawfulBEq κ] {k : κ} {table : List (κ × β)} :
    (table.lookup k).isSome = true ↔ k ∈ table.map (·.1) := by
  simp [List.lookup_isSome_iff]

theorem mem_keys_put [LawfulBEq κ] {key k : κ} {value : β} {table : List (κ × β)} :
    k ∈ (put key value table).map (·.1) ↔ k = key ∨ k ∈ table.map (·.1) := by
  rw [← lookup_isSome, lookup_put, ← lookup_isSome]
  by_cases hk : k = key <;> simp [hk]

theorem nodup_put [LawfulBEq κ] (key : κ) (value : β) {table : List (κ × β)}
    (h : (table.map (·.1)).Nodup) : ((put key value table).map (·.1)).Nodup := by
  induction table with
  | nil => simp [put]
  | cons e rest ih =>
    rw [List.map_cons, List.nodup_cons] at h
    rw [put]
    split
    · exact List.nodup_cons.mpr h
    · next hk =>
      refine List.nodup_cons.mpr ⟨?_, ih h.2⟩
      intro hmem
      rcases mem_keys_put.mp hmem with heq | hmem
      · exact hk (beq_iff_eq.mpr heq)
      · exact h.1 hmem

/-- Two tables that give every key the same value. -/
def sameContent [BEq β] (a b : List (κ × β)) : Bool :=
  a.length == b.length && a.all fun (k, v) => b.lookup k == some v

end Covenant.Entries
