import Covenant.Proofs.Definitions
import Covenant.Proofs.JsonText

namespace Covenant.Docs

open Json Source

mutual

theorem Tree.whole : ∀ t : Tree, t.toJson.Whole
  | .text _ => trivial
  | .flag _ => trivial
  | .list items => Tree.whole_items items
  | .table entries => Tree.whole_entries entries

theorem Tree.whole_items : ∀ items : List Tree, WholeItems (Tree.itemsToJson items)
  | [] => trivial
  | t :: rest => ⟨t.whole, Tree.whole_items rest⟩

theorem Tree.whole_entries :
    ∀ entries : List (Key × Tree), WholeMembers (Tree.entriesToJson entries)
  | [] => trivial
  | (_, t) :: rest => ⟨t.whole, Tree.whole_entries rest⟩

end

def Tree.source (t : Tree) : Source := t.toJson.source

theorem ofText_tree (t : Tree) : ofText? t.toJson.pretty = some t.source := ofText_pretty t.whole

theorem source_list (items : List Tree) :
    (Tree.list items).source = .array (items.map Tree.source) := by
  have hitems : itemSources (Tree.itemsToJson items) = items.map Tree.source := by
    induction items with
    | nil => rfl
    | cons t rest ih => rw [Tree.itemsToJson, itemSources, ih, List.map_cons, Tree.source]
  rw [Tree.source, Tree.toJson, Value.source, hitems]

theorem source_table (entries : List (Key × Tree)) :
    (Tree.table entries).source =
      .object (entries.map fun e => (escape e.1.text.toList, e.2.source)) := by
  have hentries : memberSources (Tree.entriesToJson entries) =
      entries.map fun e => (escape e.1.text.toList, e.2.source) := by
    induction entries with
    | nil => rfl
    | cons e rest ih => rw [Tree.entriesToJson, memberSources, ih, List.map_cons, Tree.source]
  rw [Tree.source, Tree.toJson, Value.source, hentries]

theorem source_names (entries : List (String × Tree)) :
    (Tree.names entries).source =
      .object (entries.map fun e => (escape e.1.toList, e.2.source)) := by
  rw [Tree.names, source_table, List.map_map]
  rfl

theorem string_source (s : String) : string? (Tree.text s).source = some s := textOf_escape s

theorem choice_source (s : String) : choice? (Tree.text s).source = some s := textOf_escape s

theorem bool_source (b : Bool) : bool? (Tree.flag b).source = some b := rfl

theorem exists_of_mapM {α β : Type} {f : α → Option β} {xs : List α} {ys : List β}
    (h : xs.mapM f = some ys) : ∀ y ∈ ys, ∃ x ∈ xs, f x = some y := by
  induction xs generalizing ys with
  | nil =>
    cases h
    simp
  | cons x rest ih =>
    rw [List.mapM_cons] at h
    obtain ⟨z, hz, h⟩ := Option.bind_eq_some_iff.mp h
    obtain ⟨zs, hzs, h⟩ := Option.bind_eq_some_iff.mp h
    cases h
    intro y hy
    rcases List.mem_cons.mp hy with rfl | hy
    · exact ⟨x, List.mem_cons_self, hz⟩
    · obtain ⟨x', hx', hf⟩ := ih hzs y hy
      exact ⟨x', List.mem_cons_of_mem _ hx', hf⟩

section

variable {α : Type} (read : Source → Option α) (write : α → Tree)

theorem list_source {xs : List α} (h : ∀ x ∈ xs, read (write x).source = some x) :
    list? read (Tree.list (xs.map write)).source = some xs := by
  rw [source_list, List.map_map]
  change (xs.map _).mapM read = _
  rw [List.mapM_map]
  exact mapM_self h

theorem table_source {xs : List (String × α)} (hkeys : (xs.map (·.1)).Nodup)
    (h : ∀ e ∈ xs, read (write e.2).source = some e.2) :
    table? read (Tree.names (xs.map fun e => (e.1, write e.2))).source = some xs := by
  rw [source_names, List.map_map, table?, List.mapM_map, mapM_self]
  · exact congrArg some (Entries.ofList_of_nodup hkeys)
  · intro e he
    simp [textOf_escape, h e he]

theorem statusKey_text (status : UInt16) :
    statusKey? (escape (Key.code status).text.toList) = some status := by
  have htext : (Key.code status).text.toList = Nat.toDigits 10 status.toNat := by
    simp [Key.text, toString, Nat.repr]
  have hscan := @scanInteger_toDigits status.toNat [] (by simp)
  have hvalue : Number.natOfDigits (Nat.toDigits 10 status.toNat) = status.toNat :=
    Nat.ofDigitChars_ten_toDigits
  rw [List.append_nil] at hscan
  rw [htext, escape_toDigits, statusKey?, hscan]
  simp [hvalue, status.toNat_lt]

theorem statusTable_source {xs : List (UInt16 × α)} (hkeys : (xs.map (·.1)).Nodup)
    (h : ∀ e ∈ xs, read (write e.2).source = some e.2) :
    statusTable? read (Tree.table (xs.map fun e => (.code e.1, write e.2))).source = some xs := by
  rw [source_table, List.map_map, statusTable?, List.mapM_map, mapM_self]
  · exact congrArg some (Entries.ofList_of_nodup hkeys)
  · intro e he
    simp [statusKey_text, h e he]

variable {read}

theorem keyed_of_table {s : Source} {xs : List (String × α)} (h : table? read s = some xs) :
    (xs.map (·.1)).Nodup ∧ ∀ e ∈ xs, ∃ t, read t = some e.2 := by
  cases s with
  | object members =>
    obtain ⟨pairs, hpairs, h⟩ := Option.bind_eq_some_iff.mp h
    cases h
    refine ⟨Entries.nodup_ofList pairs, ?_⟩
    intro e he
    -- an entry of the table is one of the pairs, so some member was read as it
    obtain ⟨m, -, hm⟩ := exists_of_mapM hpairs e (Entries.mem_of_mem_ofList he)
    obtain ⟨k, -, hm⟩ := Option.bind_eq_some_iff.mp hm
    obtain ⟨v, hv, hm⟩ := Option.bind_eq_some_iff.mp hm
    cases hm
    exact ⟨m.2, hv⟩
  | _ => cases h

theorem nodup_of_statusTable {s : Source} {xs : List (UInt16 × α)}
    (h : statusTable? read s = some xs) : (xs.map (·.1)).Nodup := by
  cases s with
  | object members =>
    obtain ⟨pairs, -, h⟩ := Option.bind_eq_some_iff.mp h
    cases h
    exact Entries.nodup_ofList pairs
  | _ => cases h

end

/-- What the reader of a record is given for a part that is written, or left out. -/
def partOf (t : Option Tree) : Part := t.elim .lacking fun t => .given t.source

theorem required_source {α : Type} (read : Source → Option α) (t : Tree) :
    (partOf (some t)).required? read = read t.source := rfl

theorem of_required {α : Type} {read : Source → Option α} {p : Part} {x : α}
    (h : p.required? read = some x) : ∃ s, read s = some x := by
  cases p with
  | given s => exact ⟨s, h⟩
  | _ => cases h

theorem parts_source {required : List String} {entries : List (String × Tree)}
    (hkeys : (entries.map (·.1)).Nodup) :
    parts? required (Tree.names entries).source =
      some (required.map fun n => partOf (entries.lookup n)) := by
  have hsources : ((entries.map fun e => (e.1, e.2.source)).map (·.1)).Nodup := by
    rwa [List.map_map]
  have hparts := parts_written hsources required
  rw [List.map_map] at hparts
  rw [source_names]
  refine hparts.trans (congrArg some (List.map_congr_left fun n _ => ?_))
  rw [Entries.lookup_map, partOf]
  cases entries.lookup n <;> rfl

theorem single_source (name s : String) :
    single? name (Tree.names [(name, .text s)]).source = some s := by
  rw [single?, parts_source]
  · simp [required_source, string_source]
  · exact List.nodup_singleton name

theorem lookup_optionalEntry (n name : String) (t : Option Tree) :
    (optionalEntry name t).lookup n = if n == name then t else none := by
  cases t with
  | none => simp [optionalEntry]
  | some t => exact Entries.lookup_cons_ite n name t []

theorem optional_source {α : Type} (read : Source → Option α) (write : α → Tree)
    (h : ∀ x, read (write x).source = some x) (hnull : ∀ x, (write x).source ≠ .null)
    (x : Option α) : (partOf (x.map write)).optional? read = some x := by
  cases x with
  | none => rfl
  | some x =>
    change Part.optional? read (.given (write x).source) = _
    rw [Part.optional?]
    · rw [h]
      rfl
    · exact hnull x

theorem Parameter.source_tree (p : Parameter) : Parameter.ofSource? p.tree.source = some p := by
  have htype := optional_source string? .text string_source (fun _ => nofun) p.type
  have hreference := optional_source (single? "$ref") referenceTree (single_source "$ref")
    (fun _ => nofun) p.reference
  have hlocation : Location.ofName? p.location.name = some p.location := by
    cases p.location <;> rfl
  rw [Parameter.ofSource?, Parameter.tree, parts_source]
  · simp [List.lookup_append, lookup_optionalEntry, List.lookup_cons, required_source,
      string_source, choice_source, bool_source, hlocation, htype, hreference]
  · cases p.type <;> cases p.reference <;> simp [optionalEntry]

theorem Response.source_tree (r : Response) : Response.ofSource? r.tree.source = some r := by
  have hreference : single? "$ref" (referenceTree r.reference).source = some r.reference :=
    single_source "$ref" r.reference
  rw [Response.ofSource?, Response.tree, parts_source]
  · simp [List.lookup_cons, required_source, string_source, hreference]
  · simp

def Endpoint.parametersTree? (e : Endpoint) : Option Tree :=
  if e.parameters.isEmpty then none else some (.list (e.parameters.map Parameter.tree))

theorem Endpoint.tree_eq (e : Endpoint) :
    e.tree = Tree.names ([("operationId", .text e.operation)] ++
      optionalEntry "parameters" e.parametersTree? ++
      [("responses", .table (e.responses.map fun r => (.code r.1, r.2.tree)))]) := by
  unfold Endpoint.tree Endpoint.parametersTree?
  split <;> rfl

theorem Endpoint.source_parameters (e : Endpoint) :
    (partOf e.parametersTree?).withDefault? [] (list? Parameter.ofSource?) =
      some e.parameters := by
  unfold Endpoint.parametersTree?
  split
  · next h =>
    rw [List.isEmpty_iff.mp h]
    rfl
  · exact list_source _ _ fun p _ => p.source_tree

theorem Endpoint.source_tree {e : Endpoint} (he : (e.responses.map (·.1)).Nodup) :
    Endpoint.ofSource? e.tree.source = some e := by
  have hresponses := statusTable_source _ _ he fun r _ => r.2.source_tree
  rw [Endpoint.ofSource?, Endpoint.tree_eq, parts_source]
  · simp [List.lookup_append, List.lookup_cons, lookup_optionalEntry, required_source,
      string_source, e.source_parameters, hresponses]
  · cases e.parametersTree? <;> simp [optionalEntry]

theorem Definition.source_tree {d : Definition} (hd : (d.properties.map (·.1)).Nodup) :
    Definition.ofSource? d.tree.source = some d := by
  have hproperties := table_source (single? "type")
    (fun type => Tree.names [("type", .text type)]) hd fun f _ => single_source "type" f.2
  rw [Definition.ofSource?, Definition.tree, parts_source]
  · simp [List.lookup_cons, required_source, string_source, hproperties]
  · simp

theorem Info.source_tree (i : Info) :
    Info.ofSource? (Tree.names [("title", .text i.title), ("version", .text i.version)]).source =
      some i := by
  rw [Info.ofSource?, parts_source]
  · simp [List.lookup_cons, required_source, string_source]
  · simp

/-- In each of the tables of a document, every key stands once. -/
structure Document.Keyed (d : Document) : Prop where
  templates : (d.paths.map (·.1)).Nodup
  methods : ∀ x ∈ d.paths, (x.2.map (·.1)).Nodup
  statuses : ∀ x ∈ d.paths, ∀ y ∈ x.2, (y.2.responses.map (·.1)).Nodup
  definitions : (d.definitions.map (·.1)).Nodup
  properties : ∀ x ∈ d.definitions, (x.2.properties.map (·.1)).Nodup

instance (d : Document) : Decidable d.Keyed :=
  decidable_of_iff ((d.paths.map (·.1)).Nodup ∧ (∀ x ∈ d.paths, (x.2.map (·.1)).Nodup) ∧
      (∀ x ∈ d.paths, ∀ y ∈ x.2, (y.2.responses.map (·.1)).Nodup) ∧
      (d.definitions.map (·.1)).Nodup ∧
      ∀ x ∈ d.definitions, (x.2.properties.map (·.1)).Nodup)
    ⟨fun ⟨ht, hm, hs, hd, hp⟩ => ⟨ht, hm, hs, hd, hp⟩,
      fun h => ⟨h.templates, h.methods, h.statuses, h.definitions, h.properties⟩⟩

theorem texts_source (items : List String) :
    list? string? (Tree.texts items).source = some items :=
  list_source _ _ fun s _ => string_source s

theorem Document.source_tree {d : Document} (hd : d.Keyed) :
    Document.ofSource? d.tree.source = some d := by
  have hpaths := table_source (table? Endpoint.ofSource?)
    (fun methods => Tree.names (methods.map fun y => (y.1, y.2.tree))) hd.templates fun x hx =>
      table_source _ _ (hd.methods x hx) fun y hy => y.2.source_tree (hd.statuses x hx y hy)
  have hdefinitions := table_source _ _ hd.definitions fun x hx =>
    x.2.source_tree (hd.properties x hx)
  rw [Document.ofSource?, Document.tree, parts_source]
  · simp [Document.entries, List.lookup_cons, required_source, string_source, texts_source,
      Info.source_tree, hpaths, hdefinitions]
  · simp [Document.entries]

theorem keyed_foldl_addPath (ops : List Operation) :
    ((ops.foldl addPath []).map (·.1)).Nodup ∧
      ∀ x ∈ ops.foldl addPath [], (x.2.map (·.1)).Nodup := by
  induction ops using List.reverseRecOn with
  | nil => exact ⟨.nil, fun _ hx => by cases hx⟩
  | append_singleton ops o ih =>
    obtain ⟨htemplates, hmethods⟩ := ih
    rw [List.foldl_append, List.foldl_cons, List.foldl_nil, addPath]
    refine ⟨Entries.nodup_put _ _ htemplates, ?_⟩
    intro x hx
    rcases Entries.mem_put hx with rfl | hx
    -- the methods of a template are those entered before, with one more put among them
    · refine Entries.nodup_put _ _ ?_
      cases hl : (ops.foldl addPath []).lookup o.template with
      | none => exact .nil
      | some methods =>
        exact hmethods _ ((Entries.lookup_eq_some_iff htemplates).mp hl)
    · exact hmethods x hx

theorem keyed_ofRegistry (basic : BasicInfo) {r : Registry} (hr : r.Keyed) :
    (Document.ofRegistry basic r).value.Keyed where
  templates := (keyed_foldl_addPath r.operations).1
  methods := (keyed_foldl_addPath r.operations).2
  statuses := by
    rintro ⟨template, methods⟩ hx ⟨method, e⟩ hy
    obtain ⟨o, ho, -, rfl⟩ := shows_ofRegistry ⟨methods, hx, hy⟩
    have hcodes : Function.Injective Status.code := by
      rintro ⟨c, hc⟩ ⟨d, hd⟩ rfl
      rfl
    have hnodup := (hr o ho).statuses.map hcodes
    rw [List.map_map] at hnodup
    simpa [Endpoint.ofOperation, Function.comp_def] using hnodup
  definitions := by
    rw [definitions_ofRegistry]
    exact Entries.nodup_ofList _
  properties := by
    intro x hx
    rw [definitions_ofRegistry] at hx
    obtain ⟨s, hs, rfl⟩ := List.mem_map.mp (Entries.mem_of_mem_ofList hx)
    obtain ⟨o, ho, hs⟩ := List.mem_flatMap.mp hs
    exact keys_ofSchema s ▸ (hr o ho).fields s hs

theorem Endpoint.nodup_of_read {s : Source} {e : Endpoint} (h : Endpoint.ofSource? s = some e) :
    (e.responses.map (·.1)).Nodup := by
  obtain ⟨parts, -, h⟩ := Option.bind_eq_some_iff.mp h
  split at h
  · obtain ⟨operation, -, h⟩ := Option.bind_eq_some_iff.mp h
    obtain ⟨parameters, -, h⟩ := Option.bind_eq_some_iff.mp h
    obtain ⟨responses, hresponses, h⟩ := Option.bind_eq_some_iff.mp h
    cases h
    obtain ⟨t, ht⟩ := of_required hresponses
    exact nodup_of_statusTable ht
  · cases h

theorem Definition.nodup_of_read {s : Source} {d : Definition}
    (h : Definition.ofSource? s = some d) : (d.properties.map (·.1)).Nodup := by
  obtain ⟨parts, -, h⟩ := Option.bind_eq_some_iff.mp h
  split at h
  · obtain ⟨type, -, h⟩ := Option.bind_eq_some_iff.mp h
    obtain ⟨properties, hproperties, h⟩ := Option.bind_eq_some_iff.mp h
    cases h
    obtain ⟨t, ht⟩ := of_required hproperties
    exact (keyed_of_table ht).1
  · cases h

theorem keyed_of_read {s : Source} {d : Document} (h : Document.ofSource? s = some d) :
    d.Keyed := by
  obtain ⟨parts, -, h⟩ := Option.bind_eq_some_iff.mp h
  split at h
  · obtain ⟨swagger, -, h⟩ := Option.bind_eq_some_iff.mp h
    obtain ⟨host, -, h⟩ := Option.bind_eq_some_iff.mp h
    obtain ⟨info, -, h⟩ := Option.bind_eq_some_iff.mp h
    obtain ⟨schemes, -, h⟩ := Option.bind_eq_some_iff.mp h
    obtain ⟨basePath, -, h⟩ := Option.bind_eq_some_iff.mp h
    obtain ⟨produces, -, h⟩ := Option.bind_eq_some_iff.mp h
    obtain ⟨paths, hpaths, h⟩ := Option.bind_eq_some_iff.mp h
    obtain ⟨definitions, hdefinitions, h⟩ := Option.bind_eq_some_iff.mp h
    cases h
    obtain ⟨p, hp⟩ := of_required hpaths
    obtain ⟨q, hq⟩ := of_required hdefinitions
    obtain ⟨htemplates, hmethods⟩ := keyed_of_table hp
    obtain ⟨hnames, hdefinition⟩ := keyed_of_table hq
    refine ⟨htemplates, ?_, ?_, hnames, ?_⟩
    · intro x hx
      obtain ⟨t, ht⟩ := hmethods x hx
      exact (keyed_of_table ht).1
    · intro x hx y hy
      obtain ⟨t, ht⟩ := hmethods x hx
      obtain ⟨u, hu⟩ := (keyed_of_table ht).2 y hy
      exact Endpoint.nodup_of_read hu
    · intro x hx
      obtain ⟨t, ht⟩ := hdefinition x hx
      exact Definition.nodup_of_read ht
  · cases h

/-- The text of the document reads as the document, and that gives the same text again. -/
def Document.ReadsBack (d : Document) : Prop :=
  Document.ofJson? d.json = some d ∧ (Document.ofJson? d.json).map Document.json = some d.json

theorem Document.Keyed.readsBack {d : Document} (hd : d.Keyed) : d.ReadsBack := by
  have hread : Document.ofJson? d.json = some d := by
    rw [Document.ofJson?, Document.json, ofText_tree, Option.bind_some, Document.source_tree hd]
  exact ⟨hread, congrArg (Option.map Document.json) hread⟩

/-- The JSON of a document, with whatever texts and keys, reads as that document, its tables in the
same order; so written again it is the same text. This holds for the document of every registry and
for every document that was itself read from a text. -/
theorem json_round_trip :
    (∀ d : Document, d.Keyed → d.ReadsBack) ∧
    (∀ basic r, r.Keyed → (Document.ofRegistry basic r).value.ReadsBack) ∧
    ∀ text d, Document.ofJson? text = some d → d.ReadsBack := by
  refine ⟨fun d hd => hd.readsBack, fun basic r hr => (keyed_ofRegistry basic hr).readsBack, ?_⟩
  intro text d h
  obtain ⟨s, -, hs⟩ := Option.bind_eq_some_iff.mp h
  exact (keyed_of_read hs).readsBack

/-- Read back are a document with keys that need escapes, statuses that no response has and
parameters without types; that of the user service; and one whose text has parts in another order,
a key twice and one that is unknown. -/
theorem awkward_documents_read_back :
    let d : Document := ⟨"\u0000\"", "\\", ⟨"\n\u2028", ""⟩, [], "/", ["\x7f"],
      [("/\t", []), ("", [("get", ⟨"first", [], [(65535, ⟨"", "#"⟩), (7, ⟨"\x1f", ""⟩)]⟩),
        ("put", ⟨"second", [⟨"id", .path, some "é", true, none⟩,
          ⟨"body", .body, none, false, none⟩], []⟩)])],
      [("B", ⟨"object", [("z", "text"), ("a", "")]⟩), ("A", ⟨"", []⟩)]⟩
    let text :=
      "\x7b\"paths\":\x7b\"/a\":\x7b\"get\":\x7b\"operationId\":\"x\",\"responses\":" ++
      "\x7b\x7d\x7d\x7d,\"/a\":\x7b\x7d\x7d,\"definitions\":\x7b\x7d,\"swagger\":\"2.0\"," ++
      "\"host\":\"\\u0041\",\"info\":[\"t\",\"v\"],\"schemes\":[],\"basePath\":\"/\"," ++
      "\"produces\":[],\"more\":1\x7d"
    (d.Keyed ∧ d.ReadsBack) ∧
    (Sample.registry.Keyed ∧
      (Document.ofRegistry ⟨"localhost", "Users", "1", [], "/"⟩ Sample.registry).value.ReadsBack) ∧
    ∃ e, Document.ofJson? text = some e ∧ e.ReadsBack := by
  intro d text
  have hd : d.Keyed := by decide
  have hr : Sample.registry.Keyed := by decide +kernel
  have htext : Document.ofJson? text =
      some ⟨"2.0", "A", ⟨"t", "v"⟩, [], "/", [], [("/a", [])], []⟩ := by decide +kernel
  exact ⟨⟨hd, json_round_trip.1 d hd⟩, ⟨hr, json_round_trip.2.1 _ Sample.registry hr⟩, _, htext,
    json_round_trip.2.2 text _ htext⟩

end Covenant.Docs
