import Covenant.Proofs.SettingsByKey

namespace Covenant

theorem LogFormat.ofName?_name (f : LogFormat) : ofName? f.name = some f := by
  cases f <;> rfl

namespace Settings

open Json (Value Members)

theorem Fields.isRecord {f : Format} {names : List String} {x : Value} (h : Fields f names x) :
    x.IsRecord := by
  cases x with
  | object m => exact h.2
  | array items => trivial
  | _ => exact h.elim

section Sectioned

variable {f : Format} {v : Value}

theorem Sectioned.concat (h : Sectioned f v) (t : Section) (name : String)
    (ht : v.RecordsAlong t.route) : v.RecordsAlong (t.route ++ [(t.names, name)]) :=
  Value.recordsAlong_concat ht (fun x hx => (h t x hx).isRecord) t.names name

theorem Sectioned.recordsAlong_section (h : Sectioned f v) (t : Section) :
    v.RecordsAlong t.route :=
  Section.route_induction (motive := v.RecordsAlong) trivial h.concat t

theorem Sectioned.recordsAlong_key (h : Sectioned f v) (k : Key) : v.RecordsAlong k.route :=
  Key.route_induction (motive := v.RecordsAlong) trivial h.concat k

end Sectioned

theorem Known.sorted {names : List String} {m : Members} (hm : Known names m) :
    Known names (Members.ofList (m.map fun e => (e.1, e.2.sorted))) := by
  refine ⟨fun k hk => ?_, (Members.ordered_ofList _).nodup⟩
  rw [Members.mem_keys_ofList, Members.keys_sorted] at hk
  exact hm.1 k hk

theorem Known.overlay {names : List String} {base m : Members} (hb : Known names base)
    (ho : base.Ordered) (hm : Known names m) :
    Known names
      (Value.overlayMembers base (Members.ofList (m.map fun e => (e.1, e.2.sorted)))) := by
  refine ⟨fun k hk => ?_, (Members.ordered_overlay ho _).nodup⟩
  rw [Members.mem_keys_overlay] at hk
  exact hk.elim (hb.1 k) (hm.sorted.1 k)

theorem Fields.laidOver {f : Format} {names : List String} {x : Value} (h : Fields f names x)
    {below : Option Value}
    (hb : ∀ b, below = some b → ∃ m, b = .object m ∧ Known names m ∧ Members.Ordered m) :
    Fields .json names (Members.laidOver below x.sorted) ↔ Fields .json names x := by
  cases x with
  | object m =>
    refine iff_of_true ?_ h
    rw [Value.sorted_object, Value.ofPairs]
    cases below with
    | none => exact Known.sorted h
    | some b =>
      obtain ⟨base, rfl, hbase, ho⟩ := hb b rfl
      rw [Members.laidOver, Value.overlay]
      exact hbase.overlay ho h
  | array items =>
    have harray :
        Members.laidOver below (Value.array items).sorted = (Value.array items).sorted := by
      cases below with
      | none => rfl
      | some b =>
        obtain ⟨base, rfl, -, -⟩ := hb b rfl
        rw [Members.laidOver, Value.sorted, Value.overlay]
        simp
    rw [harray, Value.sorted, Value.sortedItems_eq_map, Fields, Fields, List.length_map]
  | _ => exact h.elim

theorem toJson_section (s : Settings) (t : Section) :
    ∃ pairs, s.toJson.at? t.path = some (.ofPairs pairs) ∧ pairs.map (·.1) = t.names ∧
      ∀ k ∈ t.keys, pairs.lookup k.name = some (k.get s).toJson := by
  have hroot (name : String) (path : List String) :
      s.toJson.at? (name :: path) = _ := Value.at?_ofPairs (by simp) name path
  have htelemetry (name : String) :
      s.toJson.at? ["telemetry", name] = s.telemetry.toJson.at? [name] := hroot "telemetry" [name]
  have hinner (name : String) :
      s.telemetry.toJson.at? [name] = _ := Value.at?_ofPairs (by simp) name []
  cases t with
  | root => exact ⟨_, rfl, rfl, List.forall_mem_nil _⟩
  | validation =>
    refine ⟨_, hroot _ _, rfl, ?_⟩
    simp only [Section.keys, List.forall_mem_cons]
    exact ⟨rfl, rfl, rfl, rfl, rfl, List.forall_mem_nil _⟩
  | docs =>
    refine ⟨_, hroot _ _, rfl, ?_⟩
    simp only [Section.keys, List.forall_mem_cons]
    exact ⟨rfl, rfl, rfl, rfl, rfl, rfl, List.forall_mem_nil _⟩
  | telemetry =>
    refine ⟨_, hroot _ _, rfl, ?_⟩
    simp only [Section.keys, List.forall_mem_cons]
    exact ⟨rfl, List.forall_mem_nil _⟩
  | logging =>
    refine ⟨_, (htelemetry _).trans (hinner _), rfl, ?_⟩
    simp only [Section.keys, List.forall_mem_cons]
    exact ⟨rfl, rfl, rfl, List.forall_mem_nil _⟩
  | metrics =>
    refine ⟨_, (htelemetry _).trans (hinner _), rfl, ?_⟩
    simp only [Section.keys, List.forall_mem_cons]
    exact ⟨rfl, List.forall_mem_nil _⟩

theorem toJson_tabular (s : Settings) : Tabular s.toJson := by
  intro t x hx
  obtain ⟨pairs, hpairs, -, -⟩ := toJson_section s t
  exact ⟨Members.ofList pairs, Option.some.inj (hx.symm.trans hpairs)⟩

theorem toJson_key (s : Settings) (k : Key) : s.toJson.partAt? k.route = some (k.get s).toJson := by
  obtain ⟨pairs, hpairs, hnames, hlookup⟩ := toJson_section s k.home
  have hn : (pairs.map (·.1)).Nodup := hnames ▸ k.home.names_nodup
  rw [s.toJson_tabular.partAt?_key, Key.path_of_mem k.mem_home, Value.at?_append, hpairs,
    Option.bind_some, Value.at?_ofPairs hn, hlookup k k.mem_home]
  rfl

theorem toJson_leftBelow {s : Settings} {v : Value} {t : Section} {b : Value}
    (h : s.toJson.leftBelow? v t.route = some b) :
    ∃ m, b = .object m ∧ Known t.names m ∧ Members.Ordered m := by
  obtain ⟨pairs, hpairs, hnames, -⟩ := toJson_section s t
  rw [Value.leftBelow?, s.toJson_tabular.partAt?_section, hpairs, Option.ite_none_left_eq_some] at h
  refine ⟨Members.ofList pairs, (Option.some.inj h.2).symm, ⟨fun k hk => ?_, ?_⟩, ?_⟩
  · exact hnames ▸ Members.mem_keys_ofList.mp hk
  · exact (Members.ordered_ofList pairs).nodup
  · exact Members.ordered_ofList pairs

theorem mapM_text?_map (items : List String) :
    (items.map Value.string).mapM text? = some items := by
  induction items with
  | nil => rfl
  | cons s rest ih => rw [List.map_cons, List.mapM_cons, ih]; rfl

theorem Setting.ofValue?_toJson (x : Setting) : x.kind.ofValue? .json x.toJson = some x := by
  cases x with
  | flag b => rfl
  | text s => rfl
  | texts items => exact congrArg (Option.map Setting.texts) (mapM_text?_map items)
  | format f => exact congrArg (Option.map Setting.format) (LogFormat.ofName?_name f)

theorem Setting.laidOver_toJson (x : Setting) (v : Value) :
    Members.laidOver (some x.toJson) v = v := by
  refine Value.overlay_eq_right (fun m h => ?_) v
  cases x <;> cases h

theorem text?_sorted (v : Value) : text? v.sorted = text? v := by
  cases v <;> rfl

theorem texts?_sorted (v : Value) : texts? v.sorted = texts? v := by
  cases v with
  | array items =>
    rw [Value.sorted, texts?, texts?]
    induction items with
    | nil => rfl
    | cons x rest ih =>
      rw [Value.sorted.sortedItems, List.mapM_cons, List.mapM_cons, text?_sorted, ih]
  | _ => rfl

/-- Of several equal names the last would be left when keys are sorted; so the value has to be read
as it stands before. -/
theorem logFormat?_sorted {f : Format} {v : Value} (h : (logFormat? f v).isSome) :
    logFormat? .json v.sorted = logFormat? .json v := by
  cases v with
  | object m =>
    match m, h with
    | [(name, content)], _ =>
      have hnull : Format.isNoContent .json content.sorted = Format.isNoContent .json content := by
        cases content <;> rfl
      rw [Value.sorted_object]
      change logFormat? .json (.object [(name, content.sorted)]) = _
      rw [logFormat?, hnull, logFormat?]
  | _ => rfl

theorem ofValue?_sorted {f : Format} {kind : Kind} {x : Value}
    (h : (kind.ofValue? f x).isSome) : kind.ofValue? .json x.sorted = kind.ofValue? .json x := by
  cases kind with
  | flag => cases x <;> rfl
  | text => exact congrArg (Option.map Setting.text) (text?_sorted x)
  | texts => exact congrArg (Option.map Setting.texts) (texts?_sorted x)
  | format =>
    rw [Kind.ofValue?, Option.isSome_map] at h
    exact congrArg (Option.map Setting.format) (logFormat?_sorted h)

/-- The settings under a layer: those in a record that it has in order are the defaults. -/
def under (v : Value) (s : Settings) : Settings := pick (fun k => v.inOrder k.route) .default s

theorem get_under (v : Value) (s : Settings) (k : Key) :
    k.get (s.under v) = if v.inOrder k.route then k.get .default else k.get s := by
  rw [under, get_pick, apply_ite k.get]

theorem Tabular.under {v : Value} (hv : Tabular v) (s : Settings) : s.under v = s := by
  refine ext_get fun k => ?_
  rw [get_under, (hv.byName_key k).2, if_neg Bool.false_ne_true]

theorem overlay_sectioned {f : Format} {v : Value} (hv : Sectioned f v) (s : Settings) :
    Sectioned .json (s.toJson.overlay v.sorted) ↔ Sectioned .json v := by
  refine forall_congr' fun t => ?_
  rw [Value.partAt?_overlay (hv.recordsAlong_section t) (s.toJson_tabular.byName_section t).2]
  cases hx : v.partAt? t.route with
  | none =>
    refine iff_of_true (fun b hb => ?_) nofun
    obtain ⟨m, rfl, hm, -⟩ := toJson_leftBelow hb
    exact hm
  | some x =>
    rw [Option.map_some, Option.some_or]
    simp only [Option.some_inj, forall_eq']
    exact (hv t x hx).laidOver fun b => toJson_leftBelow

/-- Of a key, what a layer over settings comes to is what the layer has, or else the setting under
it. -/
theorem overlay_key {f : Format} {v : Value} (hv : Sectioned f v) {k : Key}
    (hx : ∀ x, v.partAt? k.route = some x → (k.kind.ofValue? f x).isSome) (s : Settings) :
    orElse (k.kind.ofValue? .json) (k.get .default) ((s.toJson.overlay v.sorted).partAt? k.route) =
      orElse (k.kind.ofValue? .json) (k.get (s.under v)) (v.partAt? k.route) := by
  rw [Value.partAt?_overlay (hv.recordsAlong_key k) (s.toJson_tabular.byName_key k).2,
    Value.leftBelow?, toJson_key, get_under]
  cases hv : v.partAt? k.route with
  | none =>
    rw [Option.map_none, Option.none_or]
    split
    · rfl
    · rw [orElse, orElse, ← Key.kind_get k s, Setting.ofValue?_toJson]
  | some x =>
    rw [Option.map_some, Option.some_or, orElse, orElse]
    split
    · exact ofValue?_sorted (hx x hv)
    · rw [Setting.laidOver_toJson]
      exact ofValue?_sorted (hx x hv)

/-- Laying a layer over settings and reading what comes of it is reading the layer with the settings
under it for what it leaves out. -/
theorem overlay_reads {f : Format} {v : Value} (ha : (ofValue? .default f v).isSome)
    (s : Settings) :
    ofValue? .default .json (s.toJson.overlay v.sorted) = ofValue? (s.under v) .json v := by
  obtain ⟨a, ha⟩ := Option.isSome_iff_exists.mp ha
  obtain ⟨hv, hreads⟩ := ofValue?_sectioned.mp ha
  have hkey (k : Key) := overlay_key hv (k := k) (fun x hx => by
    have hread := hreads k
    rw [hx] at hread
    exact Option.isSome_of_eq_some hread) s
  ext s'
  rw [ofValue?_sectioned, ofValue?_sectioned, overlay_sectioned hv]
  simp only [hkey]

theorem mapM_text?_eq_some {items : List Value} {texts : List String}
    (h : items.mapM text? = some texts) : items = texts.map .string := by
  induction items generalizing texts with
  | nil =>
    cases h
    rfl
  | cons v rest ih =>
    rw [List.mapM_cons] at h
    simp only [Option.bind_eq_bind, Option.bind_eq_some_iff] at h
    obtain ⟨text, hv, more, hmore, heq⟩ := h
    cases heq
    rw [List.map_cons, ← ih hmore]
    cases v with
    | string s =>
      cases hv
      rfl
    | _ => cases hv

theorem logFormat?_unique {f : Format} {x : Value} {a b : LogFormat}
    (ha : logFormat? f x = some a) (hb : logFormat? .json x = some b) : a = b := by
  cases x with
  | string name => exact Option.some.inj (ha.symm.trans hb)
  | object m =>
    match m, ha, hb with
    | [(name, content)], ha, hb =>
      rw [logFormat?, Option.ite_none_right_eq_some] at ha hb
      exact Option.some.inj (ha.2.symm.trans hb.2)
  | _ => cases ha

theorem Kind.ofValue?_format {kind : Kind} {f : Format} {x : Value} {a b : Setting}
    (ha : kind.ofValue? f x = some a) (hb : kind.ofValue? .json x = some b) : a = b := by
  cases kind with
  | flag | text | texts => exact Option.some.inj (ha.symm.trans hb)
  | format =>
    obtain ⟨_, ha', rfl⟩ := Option.map_eq_some_iff.mp ha
    obtain ⟨_, hb', rfl⟩ := Option.map_eq_some_iff.mp hb
    rw [logFormat?_unique ha' hb']

section Layer

variable {f : Format} {s s' : Settings} {text : String} {v : Value}

theorem withLayer_under (hv : f.value? text = some v) :
    s.withLayer f text = .ok s' ↔
      (ofValue? .default f v).isSome ∧ ofValue? (s.under v) .json v = some s' := by
  rw [withLayer, hv]
  by_cases ha : (ofValue? .default f v).isSome
  · have hsome : (ofValue? .default f v).isNone = false := by simpa using ha
    simp only [hsome, overlay_reads ha, ha, true_and]
    cases ofValue? (s.under v) .json v <;> simp
  · have hnone : (ofValue? .default f v).isNone := by simpa using ha
    simp [hnone, ha]

theorem withLayer_eq_ok (hv : f.value? text = some v) (ht : Tabular v) :
    s.withLayer f text = .ok s' ↔
      (ofValue? .default f v).isSome ∧ ofValue? s .json v = some s' := by
  rw [withLayer_under hv, ht.under]

theorem withLayer_part (hv : f.value? text = some v) (h : s.withLayer f text = .ok s') (k : Key) :
    orElse (k.kind.ofValue? f) (k.get (s.under v)) (v.partAt? k.route) = some (k.get s') := by
  obtain ⟨ha, hs'⟩ := (withLayer_under hv).mp h
  obtain ⟨a, ha⟩ := Option.isSome_iff_exists.mp ha
  have hown := (ofValue?_sectioned.mp ha).2 k
  have hjoined := (ofValue?_sectioned.mp hs').2 k
  cases hx : v.partAt? k.route with
  | none =>
    rw [hx] at hjoined
    exact hjoined
  | some x =>
    rw [hx] at hown hjoined
    rw [Kind.ofValue?_format hown hjoined] at hown
    exact hown

theorem withLayer_given (hv : f.value? text = some v) (h : s.withLayer f text = .ok s') {k : Key}
    {x : Value} (hx : v.partAt? k.route = some x) : k.kind.ofValue? f x = some (k.get s') := by
  have hpart := withLayer_part hv h k
  rw [hx] at hpart
  exact hpart

theorem withLayer_left (hv : f.value? text = some v) (h : s.withLayer f text = .ok s') {k : Key}
    (hx : v.partAt? k.route = none) : k.get s' = k.get (s.under v) := by
  have hpart := withLayer_part hv h k
  rw [hx] at hpart
  exact (Option.some.inj hpart).symm

theorem withLayer_get (hv : f.value? text = some v) (ht : Tabular v)
    (h : s.withLayer f text = .ok s') (k : Key) :
    orElse (k.kind.ofValue? f) (k.get s) (v.at? k.path) = some (k.get s') := by
  rw [← ht.partAt?_key, ← congrArg k.get (ht.under s)]
  exact withLayer_part hv h k

/-- A list in a layer takes the place of the whole list that was there. -/
theorem withLayer_schemes (hv : f.value? text = some v) (ht : Tabular v)
    (h : s.withLayer f text = .ok s') {items : List Value}
    (hitems : v.at? Key.schemes.path = some (.array items)) :
    items = s'.docs.info.schemes.map .string := by
  have hget := withLayer_get hv ht h .schemes
  rw [hitems] at hget
  obtain ⟨texts, htexts, heq⟩ := Option.map_eq_some_iff.mp hget
  rw [mapM_text?_eq_some htexts, Setting.texts.inj heq]

theorem withLayer_again (hv : f.value? text = some v) (ht : Tabular v)
    (h : s.withLayer f text = .ok s') : s'.withLayer f text = .ok s' := by
  rw [withLayer_eq_ok hv ht] at *
  refine ⟨h.1, (ofValue?_reads ht).mpr ?_⟩
  obtain ⟨hshaped, hreads⟩ := (ofValue?_reads ht).mp h.2
  refine ⟨hshaped, fun k => ?_⟩
  specialize hreads k
  cases hx : v.at? k.path with
  | none => rfl
  | some x =>
    rw [hx] at hreads
    exact hreads

theorem withLayer_without_keys (hv : f.value? text = some v) (ht : Tabular v)
    (ha : (ofValue? .default f v).isSome) (hnone : ∀ k : Key, v.at? k.path = none) :
    s.withLayer f text = .ok s := by
  refine (withLayer_eq_ok hv ht).mpr ⟨ha, (ofValue?_reads ht).mpr ?_⟩
  obtain ⟨a, ha⟩ := Option.isSome_iff_exists.mp ha
  refine ⟨((ofValue?_reads ht).mp ha).1, fun k => ?_⟩
  rw [hnone k, orElse]

end Layer

end Settings

end Covenant
