import Covenant.Proofs.Members

namespace Covenant.Json

namespace Members

/-- A value over what is below it, if there is something. -/
def laidOver (below : Option Value) (v : Value) : Value :=
  match below with
  | some b => b.overlay v
  | none => v

theorem overlay_cons (base : Members) (key : String) (v : Value) (rest : Members) :
    Value.overlayMembers base ((key, v) :: rest) =
      Value.overlayMembers (insert key (laidOver (base.get? key) v) base) rest := by
  rw [Value.overlayMembers]
  rfl

theorem get_overlay {layer : Members} (hn : (layer.map (·.1)).Nodup) (base : Members)
    (k : String) :
    (Value.overlayMembers base layer).get? k =
      ((layer.get? k).map (laidOver (base.get? k))).or (base.get? k) := by
  induction layer generalizing base with
  | nil => rfl
  | cons e rest ih =>
    obtain ⟨key, v⟩ := e
    rw [List.map_cons, List.nodup_cons] at hn
    rw [overlay_cons, ih hn.2, get_insert]
    by_cases hk : k = key
    · subst hk
      have hnone : rest.lookup k = none := Entries.lookup_eq_none hn.1
      simp [hnone, get?]
    · simp [hk, get?, Entries.lookup_cons_ite]

theorem mem_keys_overlay {layer base : Members} {k : String} :
    k ∈ (Value.overlayMembers base layer).map (·.1) ↔
      k ∈ base.map (·.1) ∨ k ∈ layer.map (·.1) := by
  induction layer generalizing base with
  | nil => simp [Value.overlayMembers]
  | cons e rest ih =>
    rw [overlay_cons, ih, mem_keys_insert, List.map_cons, List.mem_cons]
    tauto

theorem ordered_overlay {base : Members} (h : base.Ordered) (layer : Members) :
    (Value.overlayMembers base layer).Ordered := by
  induction layer generalizing base with
  | nil => exact h
  | cons e rest ih =>
    rw [overlay_cons]
    exact ih (ordered_insert h _ _)

end Members

namespace Value

theorem at?_object (m : Members) (name : String) (path : List String) :
    (object m).at? (name :: path) = (m.lookup name).bind (·.at? path) := rfl

theorem at?_member (m : Members) (name : String) : (object m).at? [name] = m.lookup name :=
  Option.bind_fun_some _

theorem at?_append (v : Value) (p q : List String) :
    v.at? (p ++ q) = (v.at? p).bind (·.at? q) := by
  induction p generalizing v with
  | nil => rfl
  | cons name p ih =>
    cases v with
    | object m =>
      rw [List.cons_append, at?_object, at?_object]
      cases m.lookup name with
      | none => rfl
      | some w => exact ih w
    | _ => rfl

theorem at?_ofPairs {pairs : List (String × Value)} (hn : (pairs.map (·.1)).Nodup) (name : String)
    (path : List String) :
    (ofPairs pairs).at? (name :: path) = (pairs.lookup name).bind (·.at? path) := by
  rw [← Members.get_ofList hn]
  rfl

theorem sorted_object (m : Members) :
    (object m).sorted = ofPairs (m.map fun e => (e.1, e.2.sorted)) := by
  rw [sorted, Members.sortedMembers_eq_map]
  rfl

theorem overlay_eq_right {base : Value} (h : ∀ m, base ≠ object m) (layer : Value) :
    base.overlay layer = layer := by
  cases base with
  | object m => exact absurd rfl (h m)
  | _ => rw [overlay]; simp

theorem overlay_eq_layer {layer : Value} (h : ∀ m, layer ≠ object m) (base : Value) :
    base.overlay layer = layer := by
  cases layer with
  | object m => exact absurd rfl (h m)
  | _ => rw [overlay]; simp

end Value

end Covenant.Json
