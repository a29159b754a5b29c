import Covenant.Proofs.Overlay

namespace Covenant.Json

mutual

/-- Every object in the value has its keys once, in order. -/
def Value.InOrder : Value → Prop
  | .array items => ItemsInOrder items
  | .object members => Members.Ordered members ∧ MembersInOrder members
  | _ => True

def ItemsInOrder : List Value → Prop
  | [] => True
  | v :: rest => v.InOrder ∧ ItemsInOrder rest

def MembersInOrder : List (String × Value) → Prop
  | [] => True
  | (_, v) :: rest => v.InOrder ∧ MembersInOrder rest

end

theorem membersInOrder_iff {m : Members} : MembersInOrder m ↔ ∀ e ∈ m, e.2.InOrder := by
  induction m with
  | nil => simp [MembersInOrder]
  | cons e rest ih => rw [MembersInOrder, ih, List.forall_mem_cons]

mutual

/-- What holds of an object if it holds of its members, and of all other values, holds of every
value. -/
theorem Value.memberInduction {P : Value → Prop} (object : ∀ m : Members, (∀ e ∈ m, P e.2) →
    P (.object m)) (other : ∀ v : Value, (∀ m, v ≠ .object m) → P v) : ∀ v : Value, P v
  | .object m => object m (membersInduction object other m)
  | .null => other _ (by simp)
  | .bool _ => other _ (by simp)
  | .number _ => other _ (by simp)
  | .string _ => other _ (by simp)
  | .array _ => other _ (by simp)

theorem membersInduction {P : Value → Prop} (object : ∀ m : Members, (∀ e ∈ m, P e.2) →
    P (.object m)) (other : ∀ v : Value, (∀ m, v ≠ .object m) → P v) :
    ∀ m : List (String × Value), ∀ e ∈ m, P e.2
  | [], _, he => nomatch he
  | (_, v) :: rest, e, he => by
    rcases List.mem_cons.mp he with rfl | he
    · exact Value.memberInduction object other v
    · exact membersInduction object other rest e he

end

namespace Members

variable {m b l : Members} {key : String} {v : Value}

theorem inOrder_of_get (hm : MembersInOrder m) (hv : m.get? key = some v) : v.InOrder := by
  obtain ⟨before, after, rfl, -⟩ := List.lookup_eq_some_iff.mp hv
  exact membersInOrder_iff.mp hm (key, v) (by simp)

theorem insert_inOrder (hm : (Value.object m).InOrder) (hv : v.InOrder) :
    (Value.object (insert key v m)).InOrder := by
  refine ⟨ordered_insert hm.1 key v, membersInOrder_iff.mpr fun e he => ?_⟩
  rcases mem_insert he with rfl | he
  · exact hv
  · exact membersInOrder_iff.mp hm.2 e he

theorem ofList_inOrder {pairs : List (String × Value)} (h : ∀ e ∈ pairs, e.2.InOrder) :
    (Value.object (ofList pairs)).InOrder := by
  induction pairs using List.reverseRecOn with
  | nil => exact ⟨.nil, trivial⟩
  | append_singleton pairs e ih =>
    rw [ofList_append]
    exact insert_inOrder (ih fun e he => h e (List.mem_append_left _ he)) (h e (by simp))

theorem overlayMembers_inOrder (hb : (Value.object b).InOrder) (hl : ∀ e ∈ l, e.2.InOrder)
    (hover : ∀ e ∈ l, ∀ w : Value, w.InOrder → (w.overlay e.2).InOrder) :
    (Value.object (Value.overlayMembers b l)).InOrder := by
  induction l generalizing b with
  | nil => exact hb
  | cons e rest ih =>
    obtain ⟨key, v⟩ := e
    obtain ⟨hv, hrest⟩ := List.forall_mem_cons.mp hl
    obtain ⟨hoverv, hoverrest⟩ := List.forall_mem_cons.mp hover
    rw [overlay_cons]
    refine ih (insert_inOrder hb ?_) hrest hoverrest
    cases hw : b.get? key with
    | none => exact hv
    | some w => exact hoverv w (inOrder_of_get hb.2 hw)

/-- A layer changes nothing if each of its members, laid over what is there, leaves it as it is. -/
theorem overlay_eq_self (hm : m.Ordered)
    (h : ∀ e ∈ l, ∃ w, m.get? e.1 = some w ∧ w.overlay e.2 = w) :
    Value.overlayMembers m l = m := by
  induction l with
  | nil => rfl
  | cons e rest ih =>
    obtain ⟨⟨w, hw, hself⟩, hrest⟩ := List.forall_mem_cons.mp h
    rw [overlay_cons, hw, laidOver, hself, insert_of_get hm hw, ih hrest]

end Members

mutual

theorem Value.sorted_inOrder : ∀ v : Value, v.sorted.InOrder
  | .null => trivial
  | .bool _ => trivial
  | .number _ => trivial
  | .string _ => trivial
  | .array items => sortedItems_inOrder items
  | .object members => Members.ofList_inOrder (sortedMembers_inOrder members)

theorem sortedItems_inOrder : ∀ items, ItemsInOrder (Value.sorted.sortedItems items)
  | [] => trivial
  | v :: rest => ⟨v.sorted_inOrder, sortedItems_inOrder rest⟩

theorem sortedMembers_inOrder : ∀ members, ∀ e ∈ Value.sorted.sortedMembers members, e.2.InOrder
  | [], _, he => nomatch he
  | (key, v) :: rest, e, he => by
    rcases List.mem_cons.mp he with rfl | he
    · exact v.sorted_inOrder
    · exact sortedMembers_inOrder rest e he

end

namespace Value

open Members (laidOver)

variable {base layer v : Value} {path : List String}

theorem overlay_inOrder (hb : base.InOrder) (hl : layer.InOrder) : (base.overlay layer).InOrder := by
  induction layer using memberInduction generalizing base with
  | other v hv =>
    rw [overlay_eq_layer hv]
    exact hl
  | object l ih =>
    cases base with
    | object b =>
      have hmembers := membersInOrder_iff.mp hl.2
      rw [overlay]
      exact Members.overlayMembers_inOrder hb hmembers fun e he w hw => ih e he hw (hmembers e he)
    | _ =>
      rw [overlay_eq_right (by simp)]
      exact hl

/-- Whether a layer is joined to an object or taken whole, each of its members is in the result, laid
over something. -/
theorem exists_members_laidOver {below : Option Value} {l : Members} (hb : ∀ w ∈ below, w.InOrder)
    (hl : l.Ordered) :
    ∃ m : Members, laidOver below (object l) = object m ∧ m.Ordered ∧ ∀ e ∈ l,
      ∃ under : Option Value, (∀ w ∈ under, w.InOrder) ∧ m.get? e.1 = some (laidOver under e.2) := by
  have hget : ∀ e ∈ l, l.get? e.1 = some e.2 := fun e he =>
    (Entries.lookup_eq_some_iff hl.nodup).mpr he
  by_cases hobject : ∃ b, below = some (object b)
  · obtain ⟨b, rfl⟩ := hobject
    have hbelow : (object b).InOrder := hb _ rfl
    refine ⟨overlayMembers b l, by rw [laidOver, overlay], Members.ordered_overlay hbelow.1 l, ?_⟩
    intro e he
    refine ⟨Members.get? b e.1, fun w hw => Members.inOrder_of_get hbelow.2 hw, ?_⟩
    rw [Members.get_overlay hl.nodup, hget e he, Option.map_some, Option.some_or]
  · have hwhole : laidOver below (object l) = object l := by
      cases below with
      | none => rfl
      | some w => exact overlay_eq_right (fun b hw => hobject ⟨b, congrArg some hw⟩) _
    exact ⟨l, hwhole, hl, fun e he => ⟨none, by simp, hget e he⟩⟩

theorem overlay_laidOver {below : Option Value} (hb : ∀ w ∈ below, w.InOrder) (hv : v.InOrder) :
    (laidOver below v).overlay v = laidOver below v := by
  induction v using memberInduction generalizing below with
  | other v hother =>
    cases below with
    | none => exact overlay_eq_layer hother v
    | some w => rw [overlay_eq_layer hother, laidOver, overlay_eq_layer hother]
  | object l ih =>
    obtain ⟨m, hm, hordered, hthere⟩ := exists_members_laidOver hb hv.1
    rw [hm, overlay, Members.overlay_eq_self hordered]
    intro e he
    obtain ⟨under, hunder, hw⟩ := hthere e he
    exact ⟨_, hw, ih e he hunder (membersInOrder_iff.mp hv.2 e he)⟩

def ObjectAt (v : Value) (path : List String) : Prop := ∃ m, v.at? path = some (object m)

/-- As much of a path as leads to something. -/
def reach : Value → List String → List String
  | object m, name :: path =>
    match m.lookup name with
    | some w => name :: w.reach path
    | none => []
  | _, _ => []

theorem reach_isPrefix (v : Value) (path : List String) : v.reach path <+: path := by
  fun_induction reach v path with
  | case1 m name path w hw ih => exact (List.prefix_cons_inj name).mpr ih
  | case2 => exact List.nil_prefix
  | case3 => exact List.nil_prefix

theorem at?_reach (v : Value) (path : List String) : (v.at? (v.reach path)).isSome = true := by
  fun_induction reach v path with
  | case1 m name path w hw ih => rwa [at?_object, hw, Option.bind_some]
  | case2 => rfl
  | case3 => rfl

theorem reach_longest {p : List String} (hp : p <+: path) (h : (v.at? p).isSome = true) :
    p <+: v.reach path := by
  induction path generalizing v p with
  | nil => exact List.prefix_nil.mp hp ▸ List.nil_prefix
  | cons name path ih =>
    rcases List.prefix_cons_iff.mp hp with rfl | ⟨rest, rfl, hrest⟩
    · exact List.nil_prefix
    · cases v with
      | object m =>
        rw [at?_object] at h
        cases hw : m.lookup name with
        | none =>
          rw [hw] at h
          cases h
        | some w =>
          rw [hw] at h
          rw [reach, hw]
          exact (List.prefix_cons_inj name).mpr (ih hrest h)
      | _ => cases h

theorem exists_lacking (h : v.at? path = none) :
    ∃ w name rest, path = v.reach path ++ name :: rest ∧ v.at? (v.reach path) = some w ∧
      w.at? [name] = none := by
  obtain ⟨rest, hpath⟩ := v.reach_isPrefix path
  obtain ⟨w, hw⟩ := Option.isSome_iff_exists.mp (v.at?_reach path)
  cases rest with
  | nil =>
    rw [List.append_nil] at hpath
    rw [hpath, h] at hw
    cases hw
  | cons name rest =>
    refine ⟨w, name, rest, hpath.symm, hw, ?_⟩
    by_contra hname
    have hlonger : (v.at? (v.reach path ++ [name])).isSome = true := by
      rw [at?_append, hw]
      exact Option.isSome_iff_ne_none.mpr hname
    have hprefix : v.reach path ++ [name] <+: path := ⟨rest, by simpa using hpath⟩
    have hle := (reach_longest hprefix hlonger).length_le
    rw [List.length_append, List.length_singleton] at hle
    omega

/-- What the layer has at a place lies over what the base has there, if anything. -/
theorem at?_overlay (hl : layer.InOrder) (h : layer.at? path = some v) :
    (base.overlay layer).at? path = some (laidOver (base.at? path) v) := by
  induction path generalizing base layer with
  | nil =>
    obtain rfl := Option.some.inj h
    rfl
  | cons name path ih =>
    cases layer with
    | object l =>
      obtain ⟨w, hw, hv⟩ := Option.bind_eq_some_iff.mp h
      have hwl : w.InOrder := Members.inOrder_of_get hl.2 hw
      cases base with
      | object b =>
        have hget : (overlayMembers b l).lookup name = some (laidOver (b.lookup name) w) := by
          rw [← Members.get?, Members.get_overlay hl.1.nodup, Members.get?, hw]
          rfl
        rw [overlay, at?_object, at?_object, hget]
        cases b.lookup name with
        | none => exact hv
        | some u => exact ih hwl hv
      | _ =>
        rw [overlay_eq_right (by simp)]
        exact h
    | _ => cases h

theorem at?_overlay_whole (hl : layer.InOrder) (h : layer.at? path = some v)
    (hnot : ¬(layer.ObjectAt path ∧ base.ObjectAt path)) :
    (base.overlay layer).at? path = some v := by
  rw [at?_overlay hl h]
  cases hw : base.at? path with
  | none => rfl
  | some w =>
    rw [not_and_or] at hnot
    rcases hnot with hnot | hnot
    · have hv : ∀ m, v ≠ object m := fun m hm => hnot ⟨m, hm ▸ h⟩
      exact congrArg some (overlay_eq_layer hv w)
    · have hv : ∀ m, w ≠ object m := fun m hm => hnot ⟨m, hm ▸ hw⟩
      exact congrArg some (overlay_eq_right hv v)

theorem at?_overlay_objects (hl : layer.InOrder) {l b : Members}
    (h : layer.at? path = some (object l)) (hb : base.at? path = some (object b)) :
    (base.overlay layer).at? path = some (object (overlayMembers b l)) := by
  rw [at?_overlay hl h, hb, laidOver, overlay]

theorem inOrder_of_at? (hv : v.InOrder) {w : Value} (h : v.at? path = some w) : w.InOrder := by
  induction path generalizing v with
  | nil => exact Option.some.inj h ▸ hv
  | cons name path ih =>
    cases v with
    | object m =>
      obtain ⟨u, hu, hw⟩ := Option.bind_eq_some_iff.mp h
      exact ih (Members.inOrder_of_get hv.2 hu) hw
    | _ => cases h

theorem at?_overlay_lacking (hl : layer.InOrder) (h : layer.at? path = none) :
    (layer.ObjectAt (layer.reach path) ∧ base.ObjectAt (layer.reach path) →
      (base.overlay layer).at? path = base.at? path) ∧
    (¬(layer.ObjectAt (layer.reach path) ∧ base.ObjectAt (layer.reach path)) →
      (base.overlay layer).at? path = none) := by
  obtain ⟨w, name, rest, hpath, hw, hlacks⟩ := exists_lacking h
  generalize layer.reach path = reached at *
  subst hpath
  constructor
  · rintro ⟨⟨l, hlayer⟩, b, hbase⟩
    have hlack : l.lookup name = none := by
      rw [hlayer, Option.some.injEq] at hw
      rwa [← hw, at?_member] at hlacks
    have hnodup : (l.map (·.1)).Nodup := (inOrder_of_at? hl hlayer).1.nodup
    have hbelow : (overlayMembers b l).lookup name = b.lookup name := by
      rw [← Members.get?, Members.get_overlay hnodup, Members.get?, Members.get?, hlack]
      rfl
    rw [at?_append, at?_overlay_objects hl hlayer hbase, at?_append, hbase, Option.bind_some,
      Option.bind_some, at?_object, at?_object, hbelow]
  · intro hnot
    rw [at?_append, at?_overlay_whole hl hw hnot, Option.bind_some, ← List.singleton_append,
      at?_append, hlacks, Option.bind_none]

/-- Where the layer has something, it is taken as it is, unless there are objects both in it and
below it; then their members are joined. Where it has nothing, what is below shows through if both
are objects at the last place on the way that the layer has, and otherwise nothing does. So an empty
object changes nothing, and neither does the same layer a second time. -/
theorem layer_decides_along_paths (hb : base.InOrder) (hl : layer.InOrder) :
    let laid := base.overlay layer
    (∀ path v, layer.at? path = some v → ¬(layer.ObjectAt path ∧ base.ObjectAt path) →
      laid.at? path = some v) ∧
    (∀ path l b, layer.at? path = some (object l) → base.at? path = some (object b) →
      ∃ m, laid.at? path = some (object m) ∧
        ∀ key, key ∈ m.map (·.1) ↔ key ∈ b.map (·.1) ∨ key ∈ l.map (·.1)) ∧
    (∀ path, let reached := layer.reach path
      (reached <+: path ∧ (layer.at? reached).isSome = true ∧
        ∀ p, p <+: path → (layer.at? p).isSome = true → p <+: reached) ∧
      (layer.at? path = none →
        (layer.ObjectAt reached ∧ base.ObjectAt reached → laid.at? path = base.at? path) ∧
        (¬(layer.ObjectAt reached ∧ base.ObjectAt reached) → laid.at? path = none))) ∧
    laid.InOrder ∧
    (∀ m, (object m).overlay (object []) = object m) ∧
    laid.overlay layer = laid := by
  intro laid
  refine ⟨fun path v h hnot => at?_overlay_whole hl h hnot, ?_, ?_, overlay_inOrder hb hl, ?_, ?_⟩
  · intro path l b hlayer hbase
    exact ⟨_, at?_overlay_objects hl hlayer hbase, fun key => Members.mem_keys_overlay⟩
  · intro path reached
    exact ⟨⟨layer.reach_isPrefix path, layer.at?_reach path, fun p => reach_longest⟩,
      at?_overlay_lacking hl⟩
  · intro m
    rw [overlay, overlayMembers]
  · have htwice : (laidOver (some base) layer).overlay layer = laidOver (some base) layer :=
      overlay_laidOver (by simpa using hb) hl
    exact htwice

/-- An object over a number, a member that the layer lacks, and an object under null. -/
theorem nested_members_laid_over :
    let base := (object [("a", object [("x", int 1), ("y", int 2)]), ("b", int 3),
      ("c", object [("d", int 4)])]).sorted
    let layer := (object [("c", .null), ("a", object [("y", object [("z", int 5)])])]).sorted
    let laid := base.overlay layer
    (base.InOrder ∧ layer.InOrder) ∧
    (laid.at? ["a", "y"] = some (object [("z", int 5)]) ∧ laid.at? ["a", "x"] = some (int 1) ∧
      laid.at? ["c", "d"] = none) ∧
    laid.overlay layer = laid := by
  intro base layer laid
  have hb : base.InOrder := sorted_inOrder _
  have hl : layer.InOrder := sorted_inOrder _
  obtain ⟨htaken, -, hlacking, -, -, htwice⟩ := layer_decides_along_paths hb hl
  have ha : layer.ObjectAt ["a"] ∧ base.ObjectAt ["a"] := ⟨⟨_, rfl⟩, ⟨_, rfl⟩⟩
  have hy : ¬(layer.ObjectAt ["a", "y"] ∧ base.ObjectAt ["a", "y"]) := by
    rintro ⟨-, m, hm⟩
    cases hm
  have hc : ¬(layer.ObjectAt ["c"] ∧ base.ObjectAt ["c"]) := by
    rintro ⟨⟨m, hm⟩, -⟩
    cases hm
  refine ⟨⟨hb, hl⟩, ⟨htaken ["a", "y"] _ rfl hy, ?_, ?_⟩, htwice⟩
  · exact ((hlacking ["a", "x"]).2 rfl).1 ha
  · exact ((hlacking ["c", "d"]).2 rfl).2 hc

end Value

end Covenant.Json
