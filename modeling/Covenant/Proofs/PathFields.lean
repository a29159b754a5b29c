import Covenant.Proofs.Matching

namespace Covenant.Draft

open Template (braced mentions rows)

variable {o : Operation}

/-- The draft refuses an operation for the first field of its path that is no parameter of it. -/
theorem segmentFault_eq (o : Operation) :
    segmentFault? o = o.contract.request.path.bind fun s =>
      (s.fieldNames.find? (· ∉ o.parameters)).map (.missingSegment · o.template) := by
  have hsame : (fun f => !mentions o.template f) = fun f => decide (f ∉ o.parameters) := by
    funext f
    rw [Bool.eq_iff_iff, Bool.not_eq_true', ← Bool.not_eq_true, decide_eq_true_iff,
      Template.mentions_iff]
    rfl
  rw [segmentFault?, hsame]
  cases o.contract.request.path with
  | none => rfl
  | some s =>
    show (s.fieldNames.find? _).bind _ = _
    exact (Option.map_eq_bind ..).symm

theorem captured_iff_mentions {path : String} {c : Captures} (h : o.captures? path = some c)
    (name : String) : (c.lookup name).isSome = true ↔ mentions o.template name = true :=
  (Template.captures_lookup h name).trans Template.mentions_iff.symm

theorem beside_of_captured {path : String} {c : Captures} (h : o.captures? path = some c)
    {name text : String} (ht : c.lookup name = some text) :
    (braced name, text.toList) ∈ rows o.template path := by
  obtain ⟨-, rfl⟩ := Template.captures_eq_some.mp h
  obtain ⟨before, after, hrows, -⟩ := Template.lookup_captured.mp ht
  rw [hrows]
  exact List.mem_append_right before List.mem_cons_self

theorem mentions_of_taken {d : Draft} (h : (d.addRoute o).value.2 = .ok ()) {s : RecordSchema}
    (hs : o.contract.request.path = some s) {field : String} (hf : field ∈ s.fieldNames) :
    mentions o.template field = true :=
  Template.mentions_iff.mpr ((addRoute_ok.mp h).covered s hs field hf)

/-- The draft finds a name in a template just if the name is a parameter of the operation, whatever
characters are in it; so the first field of the path that is no parameter is what the operation is
refused for. On every path that the operation matches, just the names that the draft finds are
captured, each with a piece that stands beside it; if a draft has taken the operation, all fields of
its path are among them. -/
theorem path_fields_read_alike (o : Operation) :
    (∀ name, mentions o.template name = true ↔ name ∈ o.parameters) ∧
    (segmentFault? o = o.contract.request.path.bind fun s =>
      (s.fieldNames.find? (· ∉ o.parameters)).map (.missingSegment · o.template)) ∧
    ∀ path c, o.captures? path = some c →
      (∀ name, (c.lookup name).isSome = true ↔ mentions o.template name = true) ∧
      (∀ name text, c.lookup name = some text →
        (braced name, text.toList) ∈ rows o.template path) ∧
      ∀ d : Draft, (d.addRoute o).value.2 = .ok () → ∀ s, o.contract.request.path = some s →
        ∀ field ∈ s.fieldNames, (c.lookup field).isSome = true := by
  refine ⟨fun _ => Template.mentions_iff, segmentFault_eq o, ?_⟩
  intro path c h
  refine ⟨captured_iff_mentions h, fun _ _ ht => beside_of_captured h ht, ?_⟩
  intro d hd s hs field hf
  exact (captured_iff_mentions h field).mpr (mentions_of_taken hd hs hf)

/-- The empty name and braces inside a name are found, and captured; a name with a slash is not, though
it stands in the template in braces. -/
theorem odd_fields_read_alike :
    let template := "/\x7b\x7d/\x7ba\x7d\x7bb\x7d/\x7b/x\x7d"
    let part (names : List String) : RecordSchema := ⟨"Odd", none, names.map (·, .text)⟩
    let o (names : List String) : Operation :=
      ⟨"odd", Sample.get, template, ⟨.make [] (part names) (some (part names)) none, []⟩⟩
    let c : Captures := [("", "p"), ("a\x7d\x7bb", "q")]
    let taken := o ["", "a\x7d\x7bb"]
    taken.captures? "//p/q/\x7b/x\x7d/" = some c ∧
    (mentions template "" = true ∧ mentions template "a\x7d\x7bb" = true ∧
      mentions template "/x" = false) ∧
    (((new .default ⟨"localhost", "Odd", "1", [], "/"⟩ "odd.json").addRoute taken).value.2 = .ok () ∧
      ∀ field ∈ (part ["", "a\x7d\x7bb"]).fieldNames, (c.lookup field).isSome = true) ∧
    segmentFault? (o ["", "/x"]) = some (.missingSegment "/x" template) := by
  intro template part o c taken
  have hc : taken.captures? "//p/q/\x7b/x\x7d/" = some c := by decide +kernel
  obtain ⟨-, -, hcaptures⟩ := path_fields_read_alike taken
  obtain ⟨hmentions, -, hcovered⟩ := hcaptures _ c hc
  obtain ⟨-, hfault, -⟩ := path_fields_read_alike (o ["", "/x"])
  have hslash : ¬mentions template "/x" = true := mt (hmentions "/x").mpr (by decide)
  have htaken : ((new .default ⟨"localhost", "Odd", "1", [], "/"⟩ "odd.json").addRoute
      taken).value.2 = .ok () := by decide +kernel
  have hfirst : (part ["", "/x"]).fieldNames.find? (· ∉ (o ["", "/x"]).parameters) = some "/x" := by
    decide +kernel
  refine ⟨hc, ⟨(hmentions "").mp (by decide), (hmentions "a\x7d\x7bb").mp (by decide),
    eq_false_of_ne_true hslash⟩, ⟨htaken, hcovered _ htaken _ rfl⟩, ?_⟩
  exact hfault.trans (congrArg (Option.map (DefinitionFault.missingSegment · template)) hfirst)

end Covenant.Draft
