import Covenant.Proofs.Dispatch
import Covenant.Proofs.Splitting
import Mathlib.Data.List.Forall2

namespace Covenant

namespace Segment

/-- What a segment asks of a piece of a path: its text, or nothing. -/
def literal? : Segment → Option String
  | .literal text => some text
  | .parameter _ => none

end Segment

namespace Template

/-- The literals of a template in their places, without the names of the parameters. -/
def shape (template : String) : List (Option String) := (segments template).map Segment.literal?

/-- The pieces of a path that a template of this shape matches. -/
def Admits : List (Option String) → List String → Prop :=
  List.Forall₂ fun part piece => ∀ text ∈ part, text = piece

theorem capture_isSome (segments : List Segment) (pieces : List String) (found : Captures) :
    (capture segments pieces found).isSome = true ↔
      Admits (segments.map Segment.literal?) pieces := by
  induction segments generalizing pieces found with
  | nil => cases pieces <;> simp [capture, Admits]
  | cons segment rest ih =>
    cases pieces with
    | nil => cases segment <;> simp [capture, Admits]
    | cons piece more =>
      cases segment with
      | literal text =>
        by_cases h : text = piece
        · simpa [capture, Segment.literal?, Admits, h] using ih more found
        · simp [capture, Segment.literal?, Admits, h]
      | parameter name =>
        simpa [capture, Segment.literal?, Admits] using ih more (Entries.put name piece found)

theorem captures_isSome {template path : String} :
    (captures? template path).isSome = true ↔
      Admits (shape template) ((pieces path).map String.ofList) := capture_isSome _ _ _

theorem literalCount_eq_shape (template : String) :
    literalCount template = (shape template).countP Option.isSome := by
  rw [literalCount, shape, List.countP_map]
  congr 1
  funext s
  cases s <;> rfl

/-- The path of some pieces. -/
def pathOf (parts : List String) : String :=
  String.ofList ('/' :: parts.flatMap fun part => part.toList ++ ['/'])

theorem pieces_pathOf {parts : List String} (h : ∀ part ∈ parts, part ≠ "" ∧ '/' ∉ part.toList) :
    (pieces (pathOf parts)).map String.ofList = parts := by
  have hsplit : ∀ ps : List String, (∀ part ∈ ps, part ≠ "" ∧ '/' ∉ part.toList) →
      ((Text.splitAt '/' (ps.flatMap fun part => part.toList ++ ['/'])).filter
        (!·.isEmpty)).map String.ofList = ps := by
    intro ps hps
    induction ps with
    | nil => simp [Text.splitAt]
    | cons part rest ih =>
      obtain ⟨⟨hne, hslash⟩, hrest⟩ := List.forall_mem_cons.mp hps
      rw [List.flatMap_cons, List.append_assoc, List.singleton_append, Text.splitAt_append hslash]
      simp [hne, ih hrest]
  rw [pieces, pathOf, String.toList_ofList, Text.splitAt, if_pos rfl]
  simpa using hsplit parts h

theorem mem_pieces {path : String} {piece : List Char} (h : piece ∈ pieces path) : piece ≠ [] ∧ '/' ∉ piece := by
  rw [pieces, List.mem_filter] at h
  exact ⟨by simpa using h.2, Text.not_mem_of_mem_splitAt h.1⟩

theorem literal_of_mem_shape {template text : String} (h : some text ∈ shape template) :
    text ≠ "" ∧ '/' ∉ text.toList := by
  rw [shape, segments, List.map_map, List.mem_map] at h
  obtain ⟨piece, hp, ht⟩ := h
  have hlit : Segment.ofPiece piece = .literal text := by
    unfold Function.comp at ht
    cases hs : Segment.ofPiece piece with
    | literal other =>
      rw [hs] at ht
      exact congrArg _ (Option.some.inj ht)
    | parameter name =>
      rw [hs] at ht
      cases ht
  obtain ⟨hne, hslash⟩ := mem_pieces hp
  rw [Segment.eq_toList_of_ofPiece hlit] at hne hslash
  exact ⟨by simpa using hne, hslash⟩

def fresh (texts : List String) : String :=
  String.ofList (List.replicate ((texts.flatMap String.toList).length + 1) 'x')

theorem length_le_of_mem {text : String} {texts : List String} (h : text ∈ texts) :
    text.length ≤ (texts.flatMap String.toList).length := by
  obtain ⟨before, after, rfl⟩ := List.append_of_mem h
  rw [List.flatMap_append, List.flatMap_cons, List.length_append, List.length_append,
    String.length_toList]
  omega

theorem fresh_not_mem (texts : List String) : fresh texts ∉ texts := by
  intro h
  have hle := length_le_of_mem h
  rw [fresh, String.length_ofList, List.length_replicate] at hle
  omega

def fill (text : String) (parts : List (Option String)) : List String := parts.map (·.getD text)

theorem admits_fill (text : String) (parts : List (Option String)) :
    Admits parts (fill text parts) := by
  induction parts with
  | nil => exact .nil
  | cons part rest ih => exact .cons (by rintro _ ⟨rfl⟩; rfl) ih

/-- A shape that admits such pieces of another one has literals in places of its literals only; so
it has fewer, or it is the same. -/
theorem count_of_admits_fill {text : String} {a b : List (Option String)} (hb : some text ∉ b)
    (h : Admits b (fill text a)) :
    b.countP Option.isSome ≤ a.countP Option.isSome ∧
      (a.countP Option.isSome ≤ b.countP Option.isSome → b = a) := by
  induction a generalizing b with
  | nil =>
    cases h
    simp
  | cons part a ih =>
    obtain _ | ⟨hpart, hrest⟩ := h
    next other b =>
    rw [List.mem_cons, not_or] at hb
    obtain ⟨hle, heq⟩ := ih hb.2 hrest
    cases other with
    | none =>
      cases part with
      | none => simpa using ⟨hle, heq⟩
      | some t =>
        simp only [List.countP_cons, Option.isSome_none, Option.isSome_some, if_true, if_false,
          Bool.false_eq_true]
        exact ⟨by omega, fun h => by omega⟩
    | some t =>
      have ht : t = part.getD text := hpart t rfl
      cases part with
      | none => exact absurd (congrArg some ht.symm) hb.1
      | some u =>
        cases ht
        simpa using ⟨hle, heq⟩

end Template

namespace Registry

theorem best_eq_none {found : List (Operation × Captures)} : best found = none ↔ found = [] := by
  cases found with
  | nil => simp [best]
  | cons z rest =>
    unfold best
    cases best rest with
    | none => simp
    | some other =>
      dsimp only
      split <;> simp

/-- The one that is chosen has more literals than all before it and no fewer than all behind. -/
theorem best_eq_some {found : List (Operation × Captures)} {x : Operation × Captures} :
    best found = some x ↔ ∃ before after, found = before ++ x :: after ∧
      (∀ y ∈ before, y.1.literalCount < x.1.literalCount) ∧
      ∀ y ∈ after, y.1.literalCount ≤ x.1.literalCount := by
  induction found generalizing x with
  | nil => simp [best]
  | cons z rest ih =>
    constructor
    · intro h
      unfold best at h
      cases hr : best rest with
      | none =>
        rw [hr] at h
        cases h
        exact ⟨[], rest, rfl, by simp, by simp [best_eq_none.mp hr]⟩
      | some other =>
        obtain ⟨before, after, hrest, hbefore, hafter⟩ := ih.mp hr
        simp only [hr] at h
        split at h
        · next hle =>
          cases h
          refine ⟨[], rest, rfl, by simp, ?_⟩
          intro y hy
          rw [hrest, List.mem_append, List.mem_cons] at hy
          rcases hy with hy | rfl | hy
          · exact Nat.le_trans (Nat.le_of_lt (hbefore y hy)) hle
          · exact hle
          · exact Nat.le_trans (hafter y hy) hle
        · next hlt =>
          cases h
          exact ⟨z :: before, after, by rw [hrest, List.cons_append],
            List.forall_mem_cons.mpr ⟨Nat.lt_of_not_ge hlt, hbefore⟩, hafter⟩
    · rintro ⟨before, after, heq, hbefore, hafter⟩
      unfold best
      cases before with
      | nil =>
        obtain ⟨rfl, rfl⟩ := List.cons.inj heq
        cases hr : best rest with
        | none => rfl
        | some other => exact if_pos (hafter other (best_mem hr))
      | cons w before =>
        obtain ⟨rfl, hrest⟩ := List.cons.inj heq
        obtain ⟨hz, hbefore⟩ := List.forall_mem_cons.mp hbefore
        rw [ih.mpr ⟨before, after, hrest, hbefore, hafter⟩]
        exact if_neg (Nat.not_le_of_lt hz)

def candidate? (method : Method) (path : String) (o : Operation) : Option (Operation × Captures) :=
  if o.method = method then (o.captures? path).map (o, ·) else none

theorem candidate_eq_some {method : Method} {path : String} {o : Operation}
    {x : Operation × Captures} :
    candidate? method path o = some x ↔
      o.method = method ∧ o.captures? path = some x.2 ∧ x.1 = o := by
  obtain ⟨p, c⟩ := x
  unfold candidate?
  split
  · next h =>
    rw [Option.map_eq_some_iff]
    constructor
    · rintro ⟨c, hc, ⟨rfl⟩⟩
      exact ⟨h, hc, rfl⟩
    · rintro ⟨-, hc, rfl⟩
      exact ⟨c, hc, rfl⟩
  · next h => simp [h]

theorem candidates_eq (r : Registry) (method : Method) (path : String) :
    r.candidates method path = r.operations.filterMap (candidate? method path) := by
  rw [candidates, List.filterMap_filter]
  simp only [decide_eq_true_eq]
  rfl

/-- A request goes to an operation that takes it if those that take it too have fewer literals, or
come later and have as many. -/
theorem resolve_eq_some_iff {r : Registry} {method : Method} {path : String} {o : Operation}
    {captures : Captures} :
    r.resolve? method path = some (o, captures) ↔
      o.method = method ∧ o.captures? path = some captures ∧
      ∃ before after, r.operations = before ++ o :: after ∧
        (∀ q ∈ before, q.method = method → (q.captures? path).isSome = true →
          q.literalCount < o.literalCount) ∧
        ∀ q ∈ after, q.method = method → (q.captures? path).isSome = true →
          q.literalCount ≤ o.literalCount := by
  have hmem : ∀ ops : List Operation, ∀ P : Operation → Prop,
      (∀ y ∈ ops.filterMap (candidate? method path), P y.1) ↔
        ∀ q ∈ ops, q.method = method → (q.captures? path).isSome = true → P q := by
    intro ops P
    simp only [List.mem_filterMap, candidate_eq_some]
    constructor
    · intro h q hq hm hp
      obtain ⟨c, hc⟩ := Option.isSome_iff_exists.mp hp
      exact h (q, c) ⟨q, hq, hm, hc, rfl⟩
    · rintro h ⟨p, c⟩ ⟨q, hq, hm, hc, rfl⟩
      exact h p hq hm (Option.isSome_iff_exists.mpr ⟨c, hc⟩)
  rw [resolve?, candidates_eq, best_eq_some]
  constructor
  · rintro ⟨before, after, heq, hbefore, hafter⟩
    obtain ⟨first, last, hops, rfl, hlast⟩ := List.filterMap_eq_append_iff.mp heq
    obtain ⟨skipped, p, rest, rfl, hskipped, hp, rfl⟩ := List.filterMap_eq_cons_iff.mp hlast
    obtain ⟨hm, hc, rfl⟩ := candidate_eq_some.mp hp
    refine ⟨hm, hc, first ++ skipped, rest, by rw [hops, List.append_assoc], ?_, (hmem _ _).mp hafter⟩
    rw [← hmem _ fun q => q.literalCount < _, List.filterMap_append,
      List.filterMap_eq_nil_iff.mpr hskipped, List.append_nil]
    exact hbefore
  · rintro ⟨hm, hc, before, after, hops, hbefore, hafter⟩
    refine ⟨before.filterMap (candidate? method path), after.filterMap (candidate? method path),
      ?_, (hmem _ fun q => q.literalCount < _).mpr hbefore, (hmem _ _).mpr hafter⟩
    rw [hops, List.filterMap_append,
      List.filterMap_cons_some (candidate_eq_some (x := (o, captures)).mpr ⟨hm, hc, rfl⟩)]

/-- Whether two operations have one method and templates of one shape. -/
def SameShape (q o : Operation) : Prop :=
  q.method = o.method ∧ Template.shape q.template = Template.shape o.template

instance : DecidableRel SameShape := fun _ _ => inferInstanceAs (Decidable (_ ∧ _))

theorem captures_of_sameShape {q o : Operation} (h : SameShape q o) {path : String}
    (ho : (o.captures? path).isSome = true) :
    (q.captures? path).isSome = true ∧ q.literalCount = o.literalCount := by
  unfold Operation.captures? Operation.literalCount at *
  rw [Template.captures_isSome, Template.literalCount_eq_shape] at *
  rw [Template.literalCount_eq_shape, h.2]
  exact ⟨ho, rfl⟩

theorem captures_pathOf_fill (o : Operation) (text : String) (hne : text ≠ "")
    (hslash : '/' ∉ text.toList) (q : Operation) :
    (q.captures? (Template.pathOf (Template.fill text (Template.shape o.template)))).isSome = true ↔
      Template.Admits (Template.shape q.template)
        (Template.fill text (Template.shape o.template)) := by
  rw [Operation.captures?, Template.captures_isSome, Template.pieces_pathOf]
  intro piece hp
  obtain ⟨part, hpart, rfl⟩ := List.mem_map.mp hp
  cases part with
  | none => exact ⟨hne, hslash⟩
  | some literal => exact Template.literal_of_mem_shape hpart

/-- Requests reach an operation just if it is the first of its method and shape. -/
theorem reached_iff_first {r : Registry} {o : Operation} :
    (∃ path captures, r.resolve? o.method path = some (o, captures)) ↔
      r.operations.find? (SameShape · o) = some o := by
  constructor
  · rintro ⟨path, captures, h⟩
    obtain ⟨-, hc, before, after, hops, hbefore, -⟩ := resolve_eq_some_iff.mp h
    have hnone : before.find? (SameShape · o) = none := by
      rw [List.find?_eq_none]
      intro q hq hs
      rw [decide_eq_true_iff] at hs
      obtain ⟨hqc, hcount⟩ := captures_of_sameShape hs (Option.isSome_iff_exists.mpr ⟨_, hc⟩)
      exact absurd (hbefore q hq hs.1 hqc) (by omega)
    rw [hops, List.find?_append, hnone, Option.none_or, List.find?_cons_of_pos]
    exact decide_eq_true ⟨rfl, rfl⟩
  · intro h
    obtain ⟨-, before, after, hops, hbefore⟩ := List.find?_eq_some_iff_append.mp h
    let texts := r.operations.flatMap fun q => (Template.shape q.template).filterMap id
    let text := Template.fresh texts
    have hnew : ∀ q ∈ r.operations, some text ∉ Template.shape q.template := by
      intro q hq hmem
      have htext : text ∈ texts :=
        List.mem_flatMap.mpr ⟨q, hq, List.mem_filterMap.mpr ⟨some text, hmem, rfl⟩⟩
      exact Template.fresh_not_mem texts htext
    have hcaptures := captures_pathOf_fill o text (by simp [text, Template.fresh])
      (by simp [text, Template.fresh])
    have hcount : ∀ q ∈ r.operations,
        (q.captures? (Template.pathOf (Template.fill text (Template.shape o.template)))).isSome
          = true → q.literalCount ≤ o.literalCount ∧
        (o.literalCount ≤ q.literalCount →
          Template.shape q.template = Template.shape o.template) := by
      intro q hq hqc
      unfold Operation.literalCount
      rw [Template.literalCount_eq_shape, Template.literalCount_eq_shape]
      exact Template.count_of_admits_fill (hnew q hq) ((hcaptures q).mp hqc)
    obtain ⟨captures, hc⟩ := Option.isSome_iff_exists.mp
      ((hcaptures o).mpr (Template.admits_fill _ _))
    refine ⟨_, captures, resolve_eq_some_iff.mpr ⟨rfl, hc, before, after, hops, ?_, ?_⟩⟩
    · intro q hq hm hqc
      -- a match before it with as many literals would have its shape, and it is the first of that
      have hshape := (hcount q (by simp [hops, hq]) hqc).2
      by_contra hlt
      have hs : SameShape q o := ⟨hm, hshape (Nat.le_of_not_lt hlt)⟩
      have hno := hbefore q hq
      simp [hs] at hno
    · intro q hq _ hqc
      exact (hcount q (by simp [hops, hq]) hqc).1

end Registry

namespace Sample

def userById : Operation := ⟨"byId", get, "/users/\x7bid\x7d", listUsers⟩

def userByName : Operation := ⟨"byName", get, "/users/\x7bname\x7d", listUsers⟩

end Sample

namespace Service

open Sample (userById userByName)

theorem route_of_resolve {s : Service} {method : Method} {path : String} {o : Operation}
    {captures : Captures} (h : s.registry.resolve? method path = some (o, captures)) (id : RequestId) :
    s.route? id method path = some (.bound id o.id, captures) := by
  rw [route?, h]
  rfl

theorem route_eq_some_iff {s : Service} (hs : s.registry.Sound) {id : RequestId} {o : Operation}
    (ho : o ∈ s.registry.operations) {method : Method} {path : String} {captures : Captures} :
    s.route? id method path = some (.bound id o.id, captures) ↔
      s.registry.resolve? method path = some (o, captures) := by
  constructor
  · intro h
    obtain ⟨p, hp, hc⟩ := route_eq_some h
    have hid : o.id = p.id := Option.some.inj (congrArg Context.operation hc)
    rw [List.inj_on_of_nodup_map hs.ids ho (Registry.resolve_eq_some hp).1 hid]
    exact hp
  · intro h
    exact route_of_resolve h id

/-- Of the operations of a service those are reached, each on some path, that are the first of
their method and of the shape of their template, and no others. -/
theorem operation_reached_iff (policy : Policy) (info : Docs.BasicInfo) (documentPath : String)
    (os : List Operation) (id : RequestId) {o : Operation}
    (ho : o ∈ ((Draft.new policy info documentPath).addRoutes os).build.value.registry.operations) :
    let s := ((Draft.new policy info documentPath).addRoutes os).build.value
    (∃ path captures, s.route? id o.method path = some (.bound id o.id, captures)) ↔
      s.registry.operations.find? (Registry.SameShape · o) = some o := by
  intro s
  have hsound : s.registry.Sound := Draft.new_addRoutes_sound policy info documentPath os
  simp only [route_eq_some_iff hsound ho]
  exact Registry.reached_iff_first

/-- The first of two operations whose templates differ by the name of a parameter is reached. -/
theorem first_of_shape_reached :
    let s := ((Draft.new .default ⟨"localhost", "Users", "1", [], "/"⟩ "swagger.json").addRoutes
      [userById, userByName]).build.value
    userById ∈ s.registry.operations ∧
    ∃ path captures, s.route? ⟨0⟩ Sample.get path = some (.bound ⟨0⟩ "byId", captures) := by
  intro s
  have hmem : userById ∈ s.registry.operations := List.mem_cons_self
  refine ⟨hmem, ?_⟩
  exact (operation_reached_iff .default ⟨"localhost", "Users", "1", [], "/"⟩ "swagger.json"
    [userById, userByName] ⟨0⟩ hmem).mpr (by decide +kernel)

/-- The second is taken into the service and no request reaches it. -/
theorem second_of_shape_not_reached :
    let s := ((Draft.new .default ⟨"localhost", "Users", "1", [], "/"⟩ "swagger.json").addRoutes
      [userById, userByName]).build.value
    s.registry.operations = [userById, userByName] ∧
    ∀ path captures, s.route? ⟨0⟩ userByName.method path ≠ some (.bound ⟨0⟩ "byName", captures) := by
  intro s
  have hsound : s.registry.Sound := Draft.new_addRoutes_sound _ _ _ _
  have hmem : userByName ∈ s.registry.operations := by
    rw [show s.registry.operations = [userById, userByName] from rfl]
    simp
  refine ⟨rfl, ?_⟩
  intro path captures h
  have hfirst := Registry.reached_iff_first.mp
    ⟨path, captures, (route_eq_some_iff hsound hmem).mp h⟩
  revert hfirst
  decide +kernel

end Service

end Covenant
