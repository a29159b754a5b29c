import Covenant.Proofs.Spelling

namespace Covenant.Settings

open Json (Value Members)

def fitsInOrder (names : List String) : Value → Bool
  | .array items => items.length ≤ names.length
  | _ => true

/-- The two formats read the value alike: no array is longer than its record, and the log format is
not a table. -/
structure Portable (v : Value) : Prop where
  fitting : ∀ (t : Section), ∀ x ∈ v.partAt? t.route, fitsInOrder t.names x = true
  plainFormat : ∀ x ∈ v.partAt? Key.logFormat.route, isTable x = false

instance (v : Value) : Decidable (Portable v) :=
  decidable_of_iff ((∀ t ∈ Section.all, ∀ x ∈ v.partAt? t.route, fitsInOrder t.names x = true) ∧
      ∀ x ∈ v.partAt? Key.logFormat.route, isTable x = false)
    ⟨fun h => ⟨fun t => h.1 t t.mem_all, h.2⟩, fun h => ⟨fun t _ => h.fitting t, h.plainFormat⟩⟩

section Readers

variable {v x : Value}

theorem fields_json_iff {names : List String} (h : Fields .toml names x) :
    Fields .json names x ↔ fitsInOrder names x = true := by
  cases x with
  | array items => simp [Fields, fitsInOrder, Format.allowsSurplus]
  | object m => exact iff_of_true h rfl
  | _ => exact h.elim

theorem Kind.ofValue?_json {kind : Kind} (h : kind = .format → isTable x = false) :
    kind.ofValue? .json x = kind.ofValue? .toml x := by
  cases kind with
  | flag | text | texts => rfl
  | format =>
    cases x with
    | object m => cases h rfl
    | _ => rfl

theorem logFormat?_table {m : Members} {a b : LogFormat}
    (ha : logFormat? .toml (.object m) = some a) (hb : logFormat? .json (.object m) = some b) :
    False := by
  match m, ha, hb with
  | [(name, content)], ha, hb =>
    rw [logFormat?, Option.ite_none_right_eq_some] at ha hb
    cases content with
    | null => cases ha.1
    | _ => cases hb.1

theorem Key.kind_eq_format {k : Key} (h : k.kind = .format) : k = .logFormat := by
  cases k <;> first | rfl | cases h

theorem portable_of_json {d d' a b : Settings} (ha : ofValue? d .toml v = some a)
    (hb : ofValue? d' .json v = some b) : Portable v := by
  obtain ⟨hsections, hkeys⟩ := ofValue?_sectioned.mp ha
  obtain ⟨hsections', hkeys'⟩ := ofValue?_sectioned.mp hb
  refine ⟨fun t x hx => (fields_json_iff (hsections t x hx)).mp (hsections' t x hx), ?_⟩
  intro x hx
  rw [Option.mem_def] at hx
  cases x with
  | object m =>
    have htoml := hkeys .logFormat
    have hjson := hkeys' .logFormat
    rw [hx] at htoml hjson
    obtain ⟨x, hx, -⟩ := Option.map_eq_some_iff.mp htoml
    obtain ⟨y, hy, -⟩ := Option.map_eq_some_iff.mp hjson
    exact (logFormat?_table hx hy).elim
  | _ => rfl

theorem Portable.reads_json {d a : Settings} (hv : Portable v) (ha : ofValue? d .toml v = some a) :
    ofValue? d .json v = some a := by
  obtain ⟨hsections, hkeys⟩ := ofValue?_sectioned.mp ha
  refine ofValue?_sectioned.mpr ⟨fun t x hx => ?_, fun k => ?_⟩
  · exact (fields_json_iff (hsections t x hx)).mpr (hv.fitting t x hx)
  · rw [← hkeys k]
    cases hx : v.partAt? k.route with
    | none => rfl
    | some x =>
      refine Kind.ofValue?_json fun hk => ?_
      cases Key.kind_eq_format hk
      exact hv.plainFormat x hx

end Readers

/-- Of the keys that a layer has the values in it, of the others those under it. -/
def overlaid (v : Value) (a s : Settings) : Settings :=
  pick (fun k => (v.partAt? k.route).isSome) a (s.under v)

section Layer

variable {f : Format} {s a : Settings} {text : String} {v : Value}

theorem withLayer_refused (h : (f.value? text).bind (ofValue? .default f) = none) (s : Settings) :
    s.withLayer f text = .error f := by
  rw [withLayer]
  cases hv : f.value? text with
  | none => rfl
  | some v =>
    rw [hv, Option.bind_some] at h
    simp [h]

theorem withLayer_taken (hv : f.value? text = some v) (ha : ofValue? .default f v = some a)
    (h : f = .toml → Portable v) (s : Settings) : s.withLayer f text = .ok (overlaid v a s) := by
  have hjson : ofValue? .default .json v = some a := by
    cases f with
    | json => exact ha
    | toml => exact (h rfl).reads_json ha
  have hsections := (ofValue?_sectioned.mp hjson).1
  exact (withLayer_under hv).mpr
    ⟨Option.isSome_of_eq_some ha, ofValue?_of_same (fun _ => rfl) hsections hjson _⟩

theorem withLayer_foreign (hv : Format.value? .toml text = some v)
    (ha : ofValue? .default .toml v = some a) (h : ¬Portable v) (s : Settings) :
    s.withLayer .toml text = .error .json := by
  have hnone : ofValue? (s.under v) .json v = none :=
    Option.eq_none_iff_forall_ne_some.mpr fun b hb => h (portable_of_json ha hb)
  simp [withLayer, hv, ha, overlay_reads (Option.isSome_of_eq_some ha), hnone]

end Layer

/-- A text in a format is refused with an error of this format where it is not read as settings.
Where it is, and is portable if it is TOML, it is taken over any settings: the keys that it has get
their values, and the others keep those that are under it. A TOML text that is read and not portable
is refused as JSON. -/
theorem layer_acceptance (l : Loading) {content format : String} {f : Format}
    (hf : Format.ofName? (Text.lower format) = some f) :
    ((f.value? content).bind (ofValue? .default f) = none →
      l.layerText content format = .error (.malformed f)) ∧
    ∀ v a, f.value? content = some v → ofValue? .default f v = some a →
      ((f = .toml → Portable v) →
        l.layerText content format = .ok { l with settings := overlaid v a l.settings }) ∧
      (f = .toml → ¬Portable v → l.layerText content format = .error (.malformed .json)) := by
  simp only [Loading.layerText, hf, Loading.layer]
  refine ⟨fun h => ?_, fun v a hv ha => ⟨fun h => ?_, ?_⟩⟩
  · rw [withLayer_refused h]
  · rw [withLayer_taken hv ha h]
  · rintro rfl h
    rw [withLayer_foreign hv ha h]

/-- A TOML text with a section in order and one as a table, over the settings for production. -/
theorem portable_text_taken :
    let l : Loading := ⟨.production, none, ⟨[]⟩⟩
    let content := "validation = [true, false]\n[telemetry.logging]\nformat = \"pretty\"\n"
    ∃ r, l.layerText content "TOML" = .ok r ∧ Key.validateResponses.get r.settings = .flag false ∧
      Key.logFormat.get r.settings = .format .pretty ∧
      Key.logLevel.get r.settings = Key.logLevel.get l.settings := by
  intro l content
  have hread : ((Format.value? .toml content).bind fun v =>
      if Portable v then ofValue? .default .toml v else none).isSome = true := by decide +kernel
  obtain ⟨a, ha⟩ := Option.isSome_iff_exists.mp hread
  obtain ⟨v, hv, ha⟩ := Option.bind_eq_some_iff.mp ha
  obtain ⟨hportable, ha⟩ := Option.ite_none_right_eq_some.mp ha
  have hname : Format.ofName? (Text.lower "TOML") = some .toml := by decide +kernel
  have htaken := ((layer_acceptance l hname).2 v a hv ha).1 fun _ => hportable
  have hvalues : (l.layerText content "TOML").toOption.map (fun r =>
      (Key.validateResponses.get r.settings, Key.logFormat.get r.settings,
        Key.logLevel.get r.settings)) =
      some (.flag false, .format .pretty, Key.logLevel.get l.settings) := by decide +kernel
  rw [htaken] at hvalues
  obtain ⟨hresponses, hmore⟩ := Prod.mk.inj (Option.some.inj hvalues)
  obtain ⟨hformat, hlevel⟩ := Prod.mk.inj hmore
  exact ⟨_, htaken, hresponses, hformat, hlevel⟩

/-- A section in order with one item too many is read as the default settings, and refused as JSON;
so is a log format with an empty table. -/
theorem read_and_refused :
    let l : Loading := ⟨.default, none, ⟨[]⟩⟩
    let read (content : String) : Option Settings :=
      (Format.value? .toml content).bind (ofValue? .default .toml)
    let refusal? (content : String) : Option LoadError :=
      match l.layerText content "toml" with
      | .error e => some e
      | .ok _ => none
    let surplus := "validation = [true, true, true, false, false, true]"
    let table := "telemetry.logging.format = \x7bjson = \x7b\x7d\x7d"
    read surplus = some .default ∧ refusal? surplus = some (.malformed .json) ∧
      read table = some .default ∧ refusal? table = some (.malformed .json) := by
  decide +kernel

end Covenant.Settings
