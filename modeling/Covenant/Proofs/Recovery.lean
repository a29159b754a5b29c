import Covenant.Proofs.Matching

namespace Covenant

namespace Entries

variable {κ β : Type} [BEq κ] [LawfulBEq κ]

theorem ofList_overwritten (before between after : List (κ × β)) (k : κ) (v w last : β) :
    ofList (before ++ (k, v) :: (between ++ (k, last) :: after)) =
      ofList (before ++ (k, w) :: (between ++ (k, last) :: after)) := by
  apply eq_of_lookup (nodup_ofList _)
  · simp [keys_ofList]
  · intro x
    simp only [lookup_ofList, List.reverse_append, List.reverse_cons, List.append_assoc,
      List.lookup_append, lookup_cons_ite]
    by_cases hx : (x == k) = true <;> simp [hx]

end Entries

namespace Template

variable {template path name : String} {c : Captures}

theorem pieces_pathOf_ofList {l : List (List Char)} (h : ∀ piece ∈ l, piece ≠ [] ∧ '/' ∉ piece) :
    pieces (pathOf (l.map String.ofList)) = l := by
  have hparts : ∀ part ∈ l.map String.ofList, part ≠ "" ∧ '/' ∉ part.toList := by
    intro part hpart
    obtain ⟨piece, hpiece, rfl⟩ := List.mem_map.mp hpart
    simpa using h piece hpiece
  exact List.map_injective_iff.mpr (fun _ _ => String.ofList_injective) (pieces_pathOf hparts)

theorem fits_replaced {ts before after : List (List Char)} {new old : List Char}
    (h : List.Forall₂ Fits ts (before ++ new :: after)) (hnew : new ∉ ts) :
    List.Forall₂ Fits ts (before ++ old :: after) := by
  induction before generalizing ts with
  | nil =>
    obtain _ | ⟨hfits, hrest⟩ := h
    refine .cons (.inl (hfits.resolve_right ?_)) hrest
    rintro rfl
    exact hnew List.mem_cons_self
  | cons p before ih =>
    obtain _ | ⟨hfits, hrest⟩ := h
    exact .cons hfits (ih hrest fun hmem => hnew (List.mem_cons_of_mem _ hmem))

theorem nodup_or_repeated (l : List (List Char × List Char)) :
    ((l.filterMap captured?).map (·.1)).Nodup ∨
      ∃ name before p between q after,
        l = before ++ (braced name, p) :: (between ++ (braced name, q) :: after) := by
  induction l with
  | nil => exact .inl .nil
  | cons row l ih =>
    rcases ih with hn | ⟨name, before, p, between, q, after, rfl⟩
    · cases hrow : captured? row with
      | none => exact .inl (by rwa [List.filterMap_cons_none hrow])
      | some e =>
        obtain ⟨name, text⟩ := e
        rw [List.filterMap_cons_some hrow, List.map_cons, List.nodup_cons]
        by_cases hmem : name ∈ (l.filterMap captured?).map (·.1)
        · obtain ⟨⟨t, q⟩, hq, ht⟩ := List.mem_map.mp (mem_keys_captured.mp hmem)
          obtain rfl : t = braced name := ht
          obtain ⟨between, after, rfl⟩ := List.append_of_mem hq
          rw [captured_eq_some.mp hrow]
          exact .inr ⟨name, [], _, between, q, after, rfl⟩
        · exact .inl ⟨hmem, hn⟩
    · exact .inr ⟨name, row :: before, p, between, q, after, rfl⟩

theorem rows_eq_iff {l : List (List Char × List Char)} (hts : l.map (·.1) = pieces template) :
    rows template path = l ∧ List.Forall₂ Fits (pieces template) (pieces path) ↔
      pieces path = l.map (·.2) ∧ ∀ row ∈ l, Fits row.1 row.2 := by
  constructor
  · rintro ⟨rfl, hfits⟩
    have hps := (snd_rows hfits).symm
    rw [← hts, hps, List.forall₂_map_left_iff, List.forall₂_map_right_iff,
      List.forall₂_same] at hfits
    exact ⟨hps, hfits⟩
  · rintro ⟨hps, hfits⟩
    rw [rows, ← hts, hps, List.zip_map', List.forall₂_map_left_iff, List.forall₂_map_right_iff,
      List.forall₂_same]
    exact ⟨List.map_id' l, hfits⟩

theorem captured_braced (name : String) (p : List Char) :
    captured? (braced name, p) = some (name, String.ofList p) :=
  captured_eq_some.mpr (by rw [String.toList_ofList])

theorem exists_replaced {before rest : List (List Char × List Char)} {old new : List Char}
    (hfits : List.Forall₂ Fits (pieces template) (pieces path))
    (hrows : rows template path = before ++ (braced name, old) :: rest)
    (hnew : new ≠ [] ∧ '/' ∉ new) :
    ∃ other, rows template other = before ++ (braced name, new) :: rest ∧
      List.Forall₂ Fits (pieces template) (pieces other) := by
  have hts := fst_rows hfits
  obtain ⟨hpath, hrow⟩ := (rows_eq_iff hts).mp ⟨rfl, hfits⟩
  have hpieces : ∀ row ∈ rows template path, row.2 ≠ [] ∧ '/' ∉ row.2 :=
    fun row h => mem_pieces (hpath ▸ List.mem_map_of_mem h)
  rw [hrows] at hts hrow hpieces
  obtain ⟨hfirst, hlast⟩ := List.forall_mem_append.mp hrow
  obtain ⟨hpfirst, hplast⟩ := List.forall_mem_append.mp hpieces
  have hstand : ∀ row ∈ before ++ (braced name, new) :: rest, row.2 ≠ [] ∧ '/' ∉ row.2 :=
    List.forall_mem_append.mpr ⟨hpfirst, List.forall_mem_cons.mpr
      ⟨hnew, (List.forall_mem_cons.mp hplast).2⟩⟩
  refine ⟨pathOf (((before ++ (braced name, new) :: rest).map (·.2)).map String.ofList), ?_⟩
  apply (rows_eq_iff (by rw [← hts]; simp)).mpr
  refine ⟨pieces_pathOf_ofList ?_, List.forall_mem_append.mpr ⟨hfirst,
    List.forall_mem_cons.mpr ⟨.inl ⟨name, rfl⟩, (List.forall_mem_cons.mp hlast).2⟩⟩⟩
  intro piece hpiece
  obtain ⟨row, hmem, rfl⟩ := List.mem_map.mp hpiece
  exact hstand row hmem

theorem exists_new_piece (texts : List String) :
    ∃ piece : List Char, (piece ≠ [] ∧ '/' ∉ piece) ∧ String.ofList piece ∉ texts :=
  ⟨(fresh texts).toList, by simp [fresh], by rw [String.ofList_toList]; exact fresh_not_mem texts⟩

/-- A path on which a new text stands in the first place of a name that comes twice: it brings the
same captures, and whatever matches it without having the new text matches the old path. -/
theorem exists_same_captures (h : captures? template path = some c)
    (hn : ¬(parameters template).Nodup) (texts : List String) :
    ∃ other, pieces other ≠ pieces path ∧ captures? template other = some c ∧
      ∀ t, (∀ piece ∈ pieces t, String.ofList piece ∈ texts) →
        (captures? t other).isSome = true → (captures? t path).isSome = true := by
  obtain ⟨hfits, rfl⟩ := captures_eq_some.mp h
  rw [← keys_rows hfits] at hn
  obtain ⟨name, before, p, between, q, after, hrows⟩ := (nodup_or_repeated _).resolve_left hn
  obtain ⟨new, hnew, hnot⟩ := exists_new_piece (String.ofList p :: texts)
  obtain ⟨hp, htexts⟩ := not_or.mp (mt List.mem_cons.mpr hnot)
  obtain ⟨other, hother, hfits'⟩ := exists_replaced hfits hrows hnew
  have hpath := (snd_rows hfits).symm
  have hpieces := (snd_rows hfits').symm
  rw [hrows, List.map_append, List.map_cons] at hpath
  rw [hother, List.map_append, List.map_cons] at hpieces
  refine ⟨other, ?_, captures_eq_some.mpr ⟨hfits', ?_⟩, ?_⟩
  · rw [hpath, hpieces]
    intro heq
    exact hp (congrArg String.ofList (List.cons.inj (List.append_cancel_left heq)).1)
  · rw [hother, hrows]
    simp only [List.filterMap_append, List.filterMap_cons_some (captured_braced name _)]
    exact Entries.ofList_overwritten _ _ _ _ _ _ _
  · intro t ht hmatch
    rw [captures_isSome, admits_iff, hpieces] at hmatch
    rw [captures_isSome, admits_iff, hpath]
    exact fits_replaced hmatch fun hmem => htexts (ht new hmem)

end Template

namespace Registry

/-- An operation still gets a path that it takes if no more operations take it than the other. -/
theorem resolve_narrowed {r : Registry} {method : Method} {path other : String} {o : Operation}
    {c c' : Captures} (h : r.resolve? method path = some (o, c))
    (ho : o.captures? other = some c')
    (hq : ∀ q ∈ r.operations, (q.captures? other).isSome = true →
      (q.captures? path).isSome = true) :
    r.resolve? method other = some (o, c') := by
  obtain ⟨hm, -, before, after, hops, hbefore, hafter⟩ := resolve_eq_some_iff.mp h
  refine resolve_eq_some_iff.mpr ⟨hm, ho, before, after, hops, ?_, ?_⟩
  · intro q hmem hqm hqc
    exact hbefore q hmem hqm (hq q (by simp [hops, hmem]) hqc)
  · intro q hmem hqm hqc
    exact hafter q hmem hqm (hq q (by simp [hops, hmem]) hqc)

/-- No other path brings an operation the same captures just if no name comes twice. -/
theorem path_determined_iff {r : Registry} {method : Method} {path : String} {o : Operation}
    {c : Captures} (h : r.resolve? method path = some (o, c)) :
    (∀ other, r.resolve? method other = some (o, c) →
      Template.pieces other = Template.pieces path) ↔ o.parameters.Nodup := by
  have hc := (resolve_eq_some h).2.2
  constructor
  · intro hother
    by_contra hn
    let texts := r.operations.flatMap fun q => (Template.pieces q.template).map String.ofList
    obtain ⟨other, hne, hsame, hmatch⟩ := Template.exists_same_captures hc hn texts
    refine hne (hother other (resolve_narrowed h hsame ?_))
    intro q hq hqc
    refine hmatch q.template ?_ hqc
    intro piece hpiece
    exact List.mem_flatMap.mpr ⟨q, hq, List.mem_map_of_mem hpiece⟩
  · intro hn other hother
    have ho := (resolve_eq_some hother).2.2
    have hpath := (Template.substitute_eq_iff hc).mpr (Template.agree_of_nodup hc hn)
    have hfilled := (Template.substitute_eq_iff ho).mpr (Template.agree_of_nodup ho hn)
    rw [hpath] at hfilled
    have hinj : Function.Injective (some ∘ String.ofList) :=
      fun _ _ h => String.ofList_injective (Option.some.inj h)
    exact (List.map_injective_iff.mpr hinj hfilled).symm

end Registry

namespace Service

/-- Where no name comes twice in its template, the captures of an operation fill the template in
with the path of the request. In general they do just if the path has one text for each name, and
they tell the path from all others that go to the operation just if no name comes twice. -/
theorem captures_determine_path (policy : Policy) (info : Docs.BasicInfo) (documentPath : String)
    (os : List Operation) (id : RequestId) {o : Operation}
    (ho : o ∈ ((Draft.new policy info documentPath).addRoutes os).build.value.registry.operations)
    {path : String} {captures : Captures}
    (hroute : ((Draft.new policy info documentPath).addRoutes os).build.value.route? id o.method path
      = some (.bound id o.id, captures)) :
    let s := ((Draft.new policy info documentPath).addRoutes os).build.value
    (o.parameters.Nodup → Template.substitute captures o.template =
      (Template.pieces path).map (some ∘ String.ofList)) ∧
    (Template.substitute captures o.template = (Template.pieces path).map (some ∘ String.ofList) ↔
      Template.Agree o.template path) ∧
    ((∀ other, s.route? id o.method other = some (.bound id o.id, captures) →
      Template.pieces other = Template.pieces path) ↔ o.parameters.Nodup) := by
  intro s
  have hsound : s.registry.Sound := Draft.new_addRoutes_sound policy info documentPath os
  have hresolve := (route_eq_some_iff hsound ho).mp hroute
  have hc := (Registry.resolve_eq_some hresolve).2.2
  refine ⟨fun hn => ?_, Template.substitute_eq_iff hc, ?_⟩
  · exact (Template.substitute_eq_iff hc).mpr (Template.agree_of_nodup hc hn)
  · simp only [route_eq_some_iff hsound ho]
    exact Registry.path_determined_iff hresolve

/-- The path of an update in the user service is told by its captures. -/
theorem user_update_path_determined :
    let basic : Docs.BasicInfo := ⟨"localhost", "Users", "1", [], "/"⟩
    let s := ((Draft.new .default basic "swagger.json").addRoutes
      Sample.registry.operations).build.value
    let o : Operation := ⟨"updateUser", Sample.put, "/users/\x7bid\x7d", Sample.updateUser⟩
    o ∈ s.registry.operations ∧
    s.route? ⟨0⟩ Sample.put "/users//5/" = some (.bound ⟨0⟩ "updateUser", [("id", "5")]) ∧
    Template.substitute [("id", "5")] o.template = [some "users", some "5"] ∧
    ∀ other, s.route? ⟨0⟩ Sample.put other = some (.bound ⟨0⟩ "updateUser", [("id", "5")]) →
      Template.pieces other = ["users".toList, "5".toList] := by
  intro basic s o
  have ho : o ∈ s.registry.operations := by decide +kernel
  have hresolve : s.registry.resolve? Sample.put "/users//5/" = some (o, [("id", "5")]) := by
    decide +kernel
  have hroute := route_of_resolve hresolve ⟨0⟩
  have hn : o.parameters.Nodup := by decide +kernel
  obtain ⟨hfilled, -, hdetermined⟩ := captures_determine_path .default basic "swagger.json"
    Sample.registry.operations ⟨0⟩ ho hroute
  exact ⟨ho, hroute, hfilled hn, hdetermined.mpr hn⟩

/-- A template that has one name twice is taken, and of two paths that differ in the first place
only the captures are the same. -/
theorem repeated_name_loses_piece :
    let basic : Docs.BasicInfo := ⟨"localhost", "Users", "1", [], "/"⟩
    let d := Draft.new .default basic "swagger.json"
    let o : Operation := ⟨"pair", Sample.get, "/\x7bid\x7d/\x7bid\x7d", Sample.listUsers⟩
    let s := (d.addRoute o).value.1.build.value
    (d.addRoute o).value.2 = .ok () ∧
    s.route? ⟨0⟩ Sample.get "/1/2" = some (.bound ⟨0⟩ "pair", [("id", "2")]) ∧
    s.route? ⟨0⟩ Sample.get "/3/2" = some (.bound ⟨0⟩ "pair", [("id", "2")]) ∧
    Template.pieces "/1/2" ≠ Template.pieces "/3/2" ∧
    Template.substitute [("id", "2")] o.template = [some "2", some "2"] := by
  intro basic d o s
  have hfirst : s.registry.resolve? Sample.get "/1/2" = some (o, [("id", "2")]) := by decide +kernel
  have hother : s.registry.resolve? Sample.get "/3/2" = some (o, [("id", "2")]) := by decide +kernel
  exact ⟨by decide +kernel, route_of_resolve hfirst ⟨0⟩, route_of_resolve hother ⟨0⟩,
    by decide +kernel, by decide +kernel⟩

end Service

end Covenant
