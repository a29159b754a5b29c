import Covenant.Proofs.Overlay

namespace Covenant.Json.Value

/-- The parts of a record with such names. -/
def parts (names : List String) : Value → Members
  | .object m => m
  | .array items => names.zip items
  | _ => []

def part? (names : List String) (name : String) (v : Value) : Option Value :=
  (v.parts names).lookup name

/-- A way to a part of a part: for each record on it the names of its parts, and the one that it
goes on to. -/
abbrev Route := List (List String × String)

def Route.path (route : Route) : List String := route.map (·.2)

def partAt? : Value → Route → Option Value
  | v, [] => some v
  | v, (names, name) :: rest => (v.part? names name).bind (partAt? · rest)

def isArray : Value → Bool
  | .array _ => true
  | _ => false

/-- Whether a record on the way is written in order. -/
def inOrder : Value → Route → Bool
  | _, [] => false
  | v, (names, name) :: rest => v.isArray || (v.part? names name).any (inOrder · rest)

def IsRecord : Value → Prop
  | .object m => (m.map (·.1)).Nodup
  | .array _ => True
  | _ => False

def RecordsAlong : Value → Route → Prop
  | _, [] => True
  | v, (names, name) :: rest =>
    v.IsRecord ∧ ∀ w, v.part? names name = some w → w.RecordsAlong rest

theorem partAt?_append (v : Value) (r₁ r₂ : Route) :
    v.partAt? (r₁ ++ r₂) = (v.partAt? r₁).bind (·.partAt? r₂) := by
  induction r₁ generalizing v with
  | nil => rfl
  | cons step rest ih =>
    obtain ⟨names, name⟩ := step
    rw [List.cons_append, partAt?, partAt?, Option.bind_assoc]
    exact congrArg _ (funext ih)

theorem partAt?_concat (v : Value) (route : Route) (names : List String) (name : String) :
    v.partAt? (route ++ [(names, name)]) = (v.partAt? route).bind (·.part? names name) := by
  rw [partAt?_append]
  exact congrArg _ (funext fun w => Option.bind_fun_some _)

theorem inOrder_append (v : Value) (r₁ r₂ : Route) :
    v.inOrder (r₁ ++ r₂) = (v.inOrder r₁ || (v.partAt? r₁).any (·.inOrder r₂)) := by
  induction r₁ generalizing v with
  | nil => rfl
  | cons step rest ih =>
    obtain ⟨names, name⟩ := step
    rw [List.cons_append, inOrder, inOrder, partAt?]
    cases v.part? names name with
    | none => simp
    | some w => simp [ih, Bool.or_assoc]

theorem inOrder_concat (v : Value) (route : Route) (names : List String) (name : String) :
    v.inOrder (route ++ [(names, name)]) = (v.inOrder route || (v.partAt? route).any isArray) := by
  have hstep (x : Value) : x.inOrder [(names, name)] = x.isArray := by
    rw [inOrder]
    cases x.part? names name <;> simp [inOrder]
  rw [inOrder_append, funext hstep]

theorem recordsAlong_concat {v : Value} {route : Route} (h : v.RecordsAlong route)
    (hx : ∀ x, v.partAt? route = some x → x.IsRecord) (names : List String) (name : String) :
    v.RecordsAlong (route ++ [(names, name)]) := by
  induction route generalizing v with
  | nil => exact ⟨hx v rfl, fun _ _ => trivial⟩
  | cons step rest ih =>
    obtain ⟨names', name'⟩ := step
    refine ⟨h.1, fun w hw => ih (h.2 w hw) fun x hx' => hx x ?_⟩
    rw [partAt?, hw]
    exact hx'

/-- The names alone lead along the route: there are no arrays on it. -/
def ByName (v : Value) (route : Route) : Prop :=
  v.partAt? route = v.at? route.path ∧ v.inOrder route = false

theorem byName_nil (v : Value) : v.ByName [] := by
  cases v <;> exact ⟨rfl, rfl⟩

theorem ByName.concat {v : Value} {route : Route} (h : v.ByName route)
    (hx : ∀ x, v.at? route.path = some x → ∃ m, x = object m) (names : List String)
    (name : String) :
    v.ByName (route ++ [(names, name)]) := by
  have hpath : Route.path (route ++ [(names, name)]) = route.path ++ [name] := List.map_append
  rw [ByName, hpath, partAt?_concat, inOrder_concat, at?_append, h.1, h.2]
  cases hw : v.at? route.path with
  | none => exact ⟨rfl, rfl⟩
  | some x =>
    obtain ⟨m, rfl⟩ := hx x hw
    exact ⟨(at?_member m name).symm, rfl⟩

theorem sortedItems_eq_map (items : List Value) : sorted.sortedItems items = items.map sorted := by
  induction items with
  | nil => rfl
  | cons v rest ih => rw [sorted.sortedItems, ih, List.map_cons]

theorem part?_sorted {v : Value} (hv : v.IsRecord) (names : List String) (name : String) :
    v.sorted.part? names name = (v.part? names name).map sorted := by
  cases v with
  | object m =>
    have hm : (m.map (·.1)).Nodup := hv
    rw [← Members.keys_sorted m] at hm
    rw [sorted_object]
    exact (Members.get_ofList hm name).trans (Entries.lookup_map sorted m name)
  | array items =>
    rw [sorted, sortedItems_eq_map, part?, parts, List.zip_map_right]
    exact Entries.lookup_map sorted _ name
  | _ => exact hv.elim

theorem partAt?_sorted {v : Value} {route : Route} (h : v.RecordsAlong route) :
    v.sorted.partAt? route = (v.partAt? route).map sorted := by
  induction route generalizing v with
  | nil => rfl
  | cons step rest ih =>
    obtain ⟨names, name⟩ := step
    rw [partAt?, partAt?, part?_sorted h.1]
    cases hw : v.part? names name with
    | none => rfl
    | some w => exact ih (h.2 w hw)

theorem part?_overlay {m : Members} (hm : (m.map (·.1)).Nodup) (b : Members) (names : List String)
    (name : String) :
    ((object b).overlay (object m).sorted).part? names name =
      ((m.lookup name).map fun w => Members.laidOver (b.lookup name) w.sorted).or
        (b.lookup name) := by
  have hn := (Members.keys_sorted m).symm ▸ hm
  have hget := Members.get_overlay (Members.ordered_ofList (m.map fun e => (e.1, e.2.sorted))).nodup
    b name
  rw [Members.get_ofList hn, Entries.lookup_map, Option.map_map] at hget
  rw [sorted_object, ofPairs, overlay]
  exact hget

/-- What is below a layer at the end of a route, unless the layer has a record on the way in
order. -/
def leftBelow? (base v : Value) (route : Route) : Option Value :=
  if v.inOrder route then none else base.partAt? route

/-- What a layer has at the end of a route lies over what is left below there; where it has nothing,
that is there. -/
theorem partAt?_overlay {v base : Value} {route : Route} (hv : v.RecordsAlong route)
    (hbase : base.inOrder route = false) :
    (base.overlay v.sorted).partAt? route =
      ((v.partAt? route).map fun x =>
        Members.laidOver (base.leftBelow? v route) x.sorted).or (base.leftBelow? v route) := by
  induction route generalizing v base with
  | nil => rfl
  | cons step rest ih =>
    obtain ⟨names, name⟩ := step
    cases base with
    | object b =>
      cases v with
      | object m =>
        have htable : (object m).isArray = false := rfl
        rw [leftBelow?, partAt?, part?_overlay hv.1, partAt?, partAt?, inOrder, htable,
          Bool.false_or, part?, part?, parts, parts]
        rw [inOrder, part?, parts] at hbase
        cases hw : m.lookup name with
        | none => simp
        | some w =>
          cases hb : b.lookup name with
          | none =>
            simp only [Option.map_some, Option.bind_some, Option.bind_none, Members.laidOver,
              partAt?_sorted (hv.2 w hw), Option.or_none, ite_self]
          | some below =>
            rw [hb] at hbase
            exact ih (hv.2 w hw) hbase
      | array items =>
        have harray : (object b).overlay (array items).sorted = (array items).sorted := by
          rw [sorted, overlay]
          simp
        have hbelow : (object b).leftBelow? (array items) ((names, name) :: rest) = none := rfl
        rw [harray, partAt?_sorted hv, hbelow, Option.or_none]
        rfl
      | _ => exact hv.1.elim
    | array items => cases hbase
    | _ =>
      -- below is nothing that has parts
      rw [overlay_eq_right (by simp), partAt?_sorted hv]
      simp only [leftBelow?, partAt?, part?, parts, List.lookup_nil, Option.bind_none,
        Option.or_none, Members.laidOver, ite_self]

/-- The record with something else for a part, if it has the part. -/
def updatePart (names : List String) (name : String) (g : Value → Value) : Value → Value
  | .object m => .object (m.map fun e => if e.1 = name then (e.1, g e.2) else e)
  | .array items => .array (items.modify (names.idxOf name) g)
  | v => v

def replaceAt (v : Value) (route : Route) (new : Value) : Value :=
  match route with
  | [] => new
  | (names, name) :: rest => v.updatePart names name (·.replaceAt rest new)

/-- The routes go by the same names as long as they go the same way, the second by `names` where the
first has ended. -/
def Agree (names : List String) : Route → Route → Prop
  | [], [] => True
  | [], (names', _) :: _ => names' = names
  | _ :: _, [] => True
  | (names₁, a) :: τ, (names₂, b) :: ρ => names₁ = names₂ ∧ (a = b → Agree names τ ρ)

theorem lookup_update (m : Members) (name n : String) (g : Value → Value) :
    (m.map fun e => if e.1 = name then (e.1, g e.2) else e).lookup n =
      if n = name then (m.lookup n).map g else m.lookup n := by
  induction m with
  | nil => simp
  | cons e rest ih =>
    obtain ⟨key, v⟩ := e
    rw [List.map_cons]
    by_cases hkey : key = name
    · subst hkey
      rw [if_pos rfl, Entries.lookup_cons_ite, Entries.lookup_cons_ite, ih]
      by_cases hn : n = key <;> simp [hn]
    · rw [if_neg hkey, Entries.lookup_cons_ite, Entries.lookup_cons_ite, ih]
      by_cases hn : n = key
      · simp [hn, hkey]
      · simp [hn]

theorem lookup_zip_modify (names : List String) (items : List Value) (name n : String)
    (g : Value → Value) :
    (names.zip (items.modify (names.idxOf name) g)).lookup n =
      if n = name then ((names.zip items).lookup n).map g else (names.zip items).lookup n := by
  induction names generalizing items with
  | nil => simp
  | cons key names ih =>
    cases items with
    | nil => simp
    | cons x items =>
      by_cases hkey : key = name
      · subst hkey
        rw [List.idxOf_cons_self, List.modify_zero_cons, List.zip_cons_cons, List.zip_cons_cons,
          Entries.lookup_cons_ite, Entries.lookup_cons_ite]
        by_cases hn : n = key <;> simp [hn]
      · rw [List.idxOf_cons_ne _ hkey, List.modify_succ_cons, List.zip_cons_cons,
          List.zip_cons_cons, Entries.lookup_cons_ite, Entries.lookup_cons_ite, ih]
        by_cases hn : n = key
        · simp [hn, hkey]
        · simp [hn]

theorem part?_updatePart (v : Value) (names : List String) (name n : String) (g : Value → Value) :
    (v.updatePart names name g).part? names n =
      if n = name then (v.part? names n).map g else v.part? names n := by
  cases v with
  | object m => exact lookup_update m name n g
  | array items => exact lookup_zip_modify names items name n g
  | _ => exact (ite_self _).symm

theorem isArray_updatePart (v : Value) (names : List String) (name : String) (g : Value → Value) :
    (v.updatePart names name g).isArray = v.isArray := by
  cases v <;> rfl

/-- Above the place, what is there has the new value in it. -/
theorem partAt?_replaceAt_above (v : Value) (ρ τ : Route) (new : Value) :
    (v.replaceAt (ρ ++ τ) new).partAt? ρ = (v.partAt? ρ).map (·.replaceAt τ new) := by
  induction ρ generalizing v with
  | nil => rfl
  | cons step ρ ih =>
    obtain ⟨names, name⟩ := step
    rw [List.cons_append, replaceAt, partAt?, partAt?, part?_updatePart, if_pos rfl]
    cases v.part? names name with
    | none => rfl
    | some w => exact ih w

/-- Beside and below the place nothing changes, if the new value has the same parts. -/
theorem partAt?_replaceAt {names : List String} {τ ρ : Route} (h : Agree names τ ρ)
    (hρ : ¬ ρ <+: τ) {v x new : Value} (hx : v.partAt? τ = some x)
    (hparts : ∀ name, new.part? names name = x.part? names name) :
    (v.replaceAt τ new).partAt? ρ = v.partAt? ρ := by
  induction τ generalizing v ρ with
  | nil =>
    obtain _ | ⟨⟨_, name⟩, ρ⟩ := ρ
    · exact absurd List.nil_prefix hρ
    · cases h
      cases hx
      rw [replaceAt, partAt?, partAt?, hparts]
  | cons step τ ih =>
    obtain ⟨names', a⟩ := step
    obtain _ | ⟨⟨_, b⟩, ρ⟩ := ρ
    · exact absurd List.nil_prefix hρ
    · obtain ⟨rfl, hrest⟩ := h
      rw [partAt?, Option.bind_eq_some_iff] at hx
      obtain ⟨w, hw, hx⟩ := hx
      rw [replaceAt, partAt?, partAt?, part?_updatePart]
      by_cases hab : b = a
      · subst hab
        rw [if_pos rfl, hw]
        exact ih (hrest rfl) (fun hp => hρ (List.cons_prefix_cons.mpr ⟨rfl, hp⟩)) hx
      · rw [if_neg hab]

/-- Beside and above the place, the same records are written in order. -/
theorem inOrder_replaceAt {names : List String} {τ ρ : Route} (h : Agree names τ ρ)
    (hτ : ¬ τ <+: ρ) (v new : Value) : (v.replaceAt τ new).inOrder ρ = v.inOrder ρ := by
  induction τ generalizing v ρ with
  | nil => exact absurd List.nil_prefix hτ
  | cons step τ ih =>
    obtain ⟨names', a⟩ := step
    obtain _ | ⟨⟨_, b⟩, ρ⟩ := ρ
    · rfl
    · obtain ⟨rfl, hrest⟩ := h
      rw [replaceAt, inOrder, inOrder, isArray_updatePart, part?_updatePart]
      by_cases hab : b = a
      · subst hab
        rw [if_pos rfl]
        cases v.part? names' b with
        | none => rfl
        | some w =>
          have hw := ih (hrest rfl) (fun hp => hτ (List.cons_prefix_cons.mpr ⟨rfl, hp⟩)) w
          rw [Option.map_some, Option.any_some, Option.any_some, hw]
      · rw [if_neg hab]

end Covenant.Json.Value
