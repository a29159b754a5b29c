import Covenant.Proofs.Records
import Covenant.Settings.Key
import Covenant.Settings.Layer

namespace Covenant

namespace Settings

open Json (Value Members)

/-- The value of a single setting. -/
inductive Setting where
  | flag (b : Bool)
  | text (s : String)
  | texts (items : List String)
  | format (f : LogFormat)
deriving DecidableEq, Repr

/-- What a key stands for. -/
inductive Kind where
  | flag
  | text
  | texts
  | format

namespace Kind

def ofValue? (f : Format) : Kind → Value → Option Setting
  | .flag, v => (bool? v).map .flag
  | .text, v => (text? v).map .text
  | .texts, v => (texts? v).map .texts
  | .format, v => (logFormat? f v).map .format

def ofVariable? : Kind → String → Option Setting
  | .flag, value => (flag? value).map .flag
  | .text, value => some (.text value)
  | .texts, value => some (.texts (schemeList value))
  | .format, value => (LogFormat.ofName? (Text.lower value)).map .format

end Kind

def Setting.kind : Setting → Kind
  | .flag _ => .flag
  | .text _ => .text
  | .texts _ => .texts
  | .format _ => .format

def Setting.toJson : Setting → Value
  | .flag b => .bool b
  | .text s => .string s
  | .texts items => .array (items.map .string)
  | .format f => .string f.name

namespace Key

def kind : Key → Kind
  | .validateRequests | .validateResponses | .enforceResponses | .rejectMissingFields
  | .allowUndeclaredStatus | .logEnabled | .metrics => .flag
  | .host | .title | .version | .basePath | .outputPath | .service | .logLevel => .text
  | .schemes => .texts
  | .logFormat => .format

def get (s : Settings) : Key → Setting
  | .validateRequests => .flag s.validation.validateRequests
  | .validateResponses => .flag s.validation.validateResponses
  | .enforceResponses => .flag s.validation.enforceResponses
  | .rejectMissingFields => .flag s.validation.rejectMissingFields
  | .allowUndeclaredStatus => .flag s.validation.allowUndeclaredStatus
  | .host => .text s.docs.info.host
  | .title => .text s.docs.info.title
  | .version => .text s.docs.info.version
  | .schemes => .texts s.docs.info.schemes
  | .basePath => .text s.docs.info.basePath
  | .outputPath => .text s.docs.outputPath
  | .service => .text s.telemetry.service
  | .logEnabled => .flag s.telemetry.logging.enabled
  | .logLevel => .text s.telemetry.logging.level
  | .logFormat => .format s.telemetry.logging.format
  | .metrics => .flag s.telemetry.metrics

theorem kind_get (k : Key) (s : Settings) : (k.get s).kind = k.kind := by
  cases k <;> rfl

end Key

theorem ext_get {s s' : Settings} (h : ∀ k : Key, k.get s = k.get s') : s = s' := by
  obtain ⟨⟨_, _, _, _, _⟩, ⟨⟨_, _, _, _, _⟩, _⟩, ⟨_, ⟨_, _, _⟩, _⟩⟩ := s
  obtain ⟨⟨_, _, _, _, _⟩, ⟨⟨_, _, _, _, _⟩, _⟩, ⟨_, ⟨_, _, _⟩, _⟩⟩ := s'
  cases h .validateRequests
  cases h .validateResponses
  cases h .enforceResponses
  cases h .rejectMissingFields
  cases h .allowUndeclaredStatus
  cases h .host
  cases h .title
  cases h .version
  cases h .schemes
  cases h .basePath
  cases h .outputPath
  cases h .service
  cases h .logEnabled
  cases h .logLevel
  cases h .logFormat
  cases h .metrics
  rfl

/-- The settings of `a` for some keys, and of `b` for the others. -/
def pick (fromA : Key → Bool) (a b : Settings) : Settings :=
  let source (k : Key) : Settings := if fromA k then a else b
  { validation :=
      { validateRequests := (source .validateRequests).validation.validateRequests
        validateResponses := (source .validateResponses).validation.validateResponses
        enforceResponses := (source .enforceResponses).validation.enforceResponses
        rejectMissingFields := (source .rejectMissingFields).validation.rejectMissingFields
        allowUndeclaredStatus := (source .allowUndeclaredStatus).validation.allowUndeclaredStatus }
    docs :=
      { info :=
          { host := (source .host).docs.info.host
            title := (source .title).docs.info.title
            version := (source .version).docs.info.version
            schemes := (source .schemes).docs.info.schemes
            basePath := (source .basePath).docs.info.basePath }
        outputPath := (source .outputPath).docs.outputPath }
    telemetry :=
      { service := (source .service).telemetry.service
        logging :=
          { enabled := (source .logEnabled).telemetry.logging.enabled
            level := (source .logLevel).telemetry.logging.level
            format := (source .logFormat).telemetry.logging.format }
        metrics := (source .metrics).telemetry.metrics } }

theorem get_pick (fromA : Key → Bool) (a b : Settings) (k : Key) :
    k.get (pick fromA a b) = k.get (if fromA k then a else b) := by
  cases k <;> rfl

/-- The tables that settings are written in. -/
inductive Section where
  | root
  | validation
  | docs
  | telemetry
  | logging
  | metrics

namespace Section

def all : List Section := [.root, .validation, .docs, .telemetry, .logging, .metrics]

theorem mem_all (t : Section) : t ∈ all := by
  cases t <;> simp [all]

def path : Section → List String
  | .root => []
  | .validation => ["validation"]
  | .docs => ["docs"]
  | .telemetry => ["telemetry"]
  | .logging => ["telemetry", "logging"]
  | .metrics => ["telemetry", "metrics"]

def names : Section → List String
  | .root => ["validation", "docs", "telemetry"]
  | .validation => Policy.names
  | .docs => ["host", "title", "version", "schemes", "base_path", "output_path"]
  | .telemetry => ["service_name", "logging", "metrics"]
  | .logging => ["enabled", "level", "format"]
  | .metrics => ["enabled"]

def keys : Section → List Key
  | .root => []
  | .validation => [.validateRequests, .validateResponses, .enforceResponses, .rejectMissingFields,
      .allowUndeclaredStatus]
  | .docs => [.host, .title, .version, .schemes, .basePath, .outputPath]
  | .telemetry => [.service]
  | .logging => [.logEnabled, .logLevel, .logFormat]
  | .metrics => [.metrics]

def route : Section → Value.Route
  | .root => []
  | .validation => [(names .root, "validation")]
  | .docs => [(names .root, "docs")]
  | .telemetry => [(names .root, "telemetry")]
  | .logging => [(names .root, "telemetry"), (names .telemetry, "logging")]
  | .metrics => [(names .root, "telemetry"), (names .telemetry, "metrics")]

theorem route_path (t : Section) : t.route.path = t.path := by
  cases t <;> rfl

theorem names_nodup (t : Section) : t.names.Nodup := by
  cases t <;> decide

/-- What holds at the root, and goes over from a section to all that is in it. -/
theorem route_induction {motive : Value.Route → Prop} (root : motive [])
    (inner : ∀ (t : Section) (name : String), motive t.route →
      motive (t.route ++ [(t.names, name)])) (t : Section) : motive t.route := by
  have top (name : String) : motive [(Section.root.names, name)] := inner .root name root
  cases t with
  | root => exact root
  | validation => exact top "validation"
  | docs => exact top "docs"
  | telemetry => exact top "telemetry"
  | logging => exact inner .telemetry "logging" (top "telemetry")
  | metrics => exact inner .telemetry "metrics" (top "telemetry")

end Section

namespace Key

/-- The name of a key in its section. -/
def name (k : Key) : String := k.path.getLastD ""

theorem path_of_mem {t : Section} {k : Key} (h : k ∈ t.keys) : k.path = t.path ++ [k.name] := by
  revert k
  cases t <;> decide

/-- The section that a key is in. -/
def home : Key → Section
  | .validateRequests | .validateResponses | .enforceResponses | .rejectMissingFields
  | .allowUndeclaredStatus => .validation
  | .host | .title | .version | .schemes | .basePath | .outputPath => .docs
  | .service => .telemetry
  | .logEnabled | .logLevel | .logFormat => .logging
  | .metrics => .metrics

theorem mem_home (k : Key) : k ∈ k.home.keys := by
  cases k <;> decide

def route (k : Key) : Value.Route := k.home.route ++ [(k.home.names, k.name)]

theorem route_path (k : Key) : k.route.path = k.path := by
  cases k <;> rfl

theorem route_induction {motive : Value.Route → Prop} (root : motive [])
    (inner : ∀ (t : Section) (name : String), motive t.route →
      motive (t.route ++ [(t.names, name)])) (k : Key) : motive k.route :=
  inner k.home k.name (Section.route_induction root inner k.home)

theorem route_of_mem {t : Section} {k : Key} (h : k ∈ t.keys) :
    k.route = t.route ++ [(t.names, k.name)] := by
  revert k
  cases t <;> decide

end Key

/-- Keys out of the given names, each once. -/
def Known (names : List String) (m : Members) : Prop :=
  (∀ k ∈ m.map (·.1), k ∈ names) ∧ (m.map (·.1)).Nodup

/-- The value is a record of such fields, as a table or in order. -/
def Fields (f : Format) (names : List String) : Value → Prop
  | .object m => Known names m
  | .array items => f.allowsSurplus ∨ items.length ≤ names.length
  | _ => False

/-- Every section that is written is a record of its own fields. -/
def Sectioned (f : Format) (v : Value) : Prop :=
  ∀ (t : Section) (x : Value), v.partAt? t.route = some x → Fields f t.names x

/-- What is written in order is what is written under the names in order. -/
theorem items_eq_lookup {names : List String} (hn : names.Nodup) (items : List Value) :
    (List.range names.length).map (items[·]?) = names.map fun n => (names.zip items).lookup n := by
  induction names generalizing items with
  | nil => rfl
  | cons name names ih =>
    rw [List.nodup_cons] at hn
    cases items with
    | nil => simp [List.replicate_succ]
    | cons x items =>
      have hrest : ∀ n ∈ names,
          ((name, x) :: names.zip items).lookup n = (names.zip items).lookup n := by
        intro n hmem
        have hne : n ≠ name := fun h => hn.1 (h ▸ hmem)
        rw [Entries.lookup_cons_ite, if_neg (by simpa using hne)]
      rw [List.length_cons, List.range_succ_eq_map, List.map_cons, List.map_map, List.zip_cons_cons,
        List.map_cons, List.map_congr_left hrest, ← ih hn.2, List.lookup_cons_self]
      rfl

theorem given?_bind {α : Type} {f : Format} {names : List String} (hn : names.Nodup) {v : Value}
    {read : List (Option Value) → Option α} {a : α} :
    (given? f names v >>= read) = some a ↔
      Fields f names v ∧ read (names.map (v.part? names ·)) = some a := by
  cases v with
  | object m =>
    rw [given?]
    split
    · next h => exact (and_iff_right h).symm
    · next h => exact iff_of_false nofun fun hk => h hk.1
  | array items =>
    rw [given?, items_eq_lookup hn]
    split
    · next h => exact (and_iff_right h).symm
    · next h => exact iff_of_false nofun fun hk => h hk.1
  | _ => exact iff_of_false nofun fun h => h.1

theorem policyOf?_eq_some_iff {d p : Policy} {f : Format} {v : Value} :
    policyOf? d f v = some p ↔
      Fields f Section.validation.names v ∧
        let part := v.part? Section.validation.names
        orElse bool? d.validateRequests (part "validate_requests") = some p.validateRequests ∧
        orElse bool? d.validateResponses (part "validate_responses") = some p.validateResponses ∧
        orElse bool? d.enforceResponses (part "enforce_responses") = some p.enforceResponses ∧
        orElse bool? d.rejectMissingFields (part "reject_missing_fields") =
          some p.rejectMissingFields ∧
        orElse bool? d.allowUndeclaredStatus (part "allow_undeclared_status") =
          some p.allowUndeclaredStatus := by
  rw [policyOf?, Section.names, given?_bind, and_congr_right_iff]
  · intro _
    cases p
    simp [Policy.names, Option.bind_eq_some_iff, -Bool.exists_bool]
  · exact Section.names_nodup .validation

theorem docsOf?_eq_some_iff {d s : DocsSettings} {f : Format} {v : Value} :
    docsOf? d f v = some s ↔
      Fields f Section.docs.names v ∧
        let part := v.part? Section.docs.names
        orElse text? d.info.host (part "host") = some s.info.host ∧
        orElse text? d.info.title (part "title") = some s.info.title ∧
        orElse text? d.info.version (part "version") = some s.info.version ∧
        orElse texts? d.info.schemes (part "schemes") = some s.info.schemes ∧
        orElse text? d.info.basePath (part "base_path") = some s.info.basePath ∧
        orElse text? d.outputPath (part "output_path") = some s.outputPath := by
  rw [docsOf?, Section.names, given?_bind, and_congr_right_iff]
  · intro _
    obtain ⟨⟨_, _, _, _, _⟩, _⟩ := s
    simp [Option.bind_eq_some_iff, -Bool.exists_bool]
  · exact Section.names_nodup .docs

theorem loggingOf?_eq_some_iff {d s : LoggingSettings} {f : Format} {v : Value} :
    loggingOf? d f v = some s ↔
      Fields f Section.logging.names v ∧
        let part := v.part? Section.logging.names
        orElse bool? d.enabled (part "enabled") = some s.enabled ∧
        orElse text? d.level (part "level") = some s.level ∧
        orElse (logFormat? f) d.format (part "format") = some s.format := by
  rw [loggingOf?, Section.names, given?_bind, and_congr_right_iff]
  · intro _
    cases s
    simp [Option.bind_eq_some_iff, -Bool.exists_bool]
  · exact Section.names_nodup .logging

theorem metricsOf?_eq_some_iff {d b : Bool} {f : Format} {v : Value} :
    metricsOf? d f v = some b ↔
      Fields f Section.metrics.names v ∧
        orElse bool? d (v.part? Section.metrics.names "enabled") = some b := by
  rw [metricsOf?, Section.names, given?_bind]
  · rfl
  · exact Section.names_nodup .metrics

theorem telemetryOf?_eq_some_iff {d s : TelemetrySettings} {f : Format} {v : Value} :
    telemetryOf? d f v = some s ↔
      Fields f Section.telemetry.names v ∧
        let part := v.part? Section.telemetry.names
        orElse text? d.service (part "service_name") = some s.service ∧
        orElse (loggingOf? d.logging f) d.logging (part "logging") = some s.logging ∧
        orElse (metricsOf? d.metrics f) d.metrics (part "metrics") = some s.metrics := by
  rw [telemetryOf?, Section.names, given?_bind, and_congr_right_iff]
  · intro _
    cases s
    simp [Option.bind_eq_some_iff, -Bool.exists_bool]
  · exact Section.names_nodup .telemetry

theorem ofValue?_eq_some_iff {d s : Settings} {f : Format} {v : Value} :
    ofValue? d f v = some s ↔
      Fields f Section.root.names v ∧
        let part := v.part? Section.root.names
        orElse (policyOf? d.validation f) d.validation (part "validation") = some s.validation ∧
        orElse (docsOf? d.docs f) d.docs (part "docs") = some s.docs ∧
        orElse (telemetryOf? d.telemetry f) d.telemetry (part "telemetry") = some s.telemetry := by
  rw [ofValue?, Section.names, given?_bind, and_congr_right_iff]
  · intro _
    cases s
    simp [Option.bind_eq_some_iff, -Bool.exists_bool]
  · exact Section.names_nodup .root

theorem orElse_map {α β : Type} {read : Value → Option α} {c : α → β} (hc : Function.Injective c)
    {d a : α} {x : Option Value} :
    orElse (fun v => (read v).map c) (c d) x = some (c a) ↔ orElse read d x = some a := by
  cases x with
  | none => simp [orElse, hc.eq_iff]
  | some v => simp [orElse, hc.eq_iff]

theorem orElse_flag {f : Format} {d b : Bool} {x : Option Value} :
    orElse (Kind.flag.ofValue? f) (.flag d) x = some (.flag b) ↔ orElse bool? d x = some b :=
  orElse_map fun _ _ => Setting.flag.inj

theorem orElse_text {f : Format} {d s : String} {x : Option Value} :
    orElse (Kind.text.ofValue? f) (.text d) x = some (.text s) ↔ orElse text? d x = some s :=
  orElse_map fun _ _ => Setting.text.inj

theorem orElse_texts {f : Format} {d s : List String} {x : Option Value} :
    orElse (Kind.texts.ofValue? f) (.texts d) x = some (.texts s) ↔ orElse texts? d x = some s :=
  orElse_map fun _ _ => Setting.texts.inj

theorem orElse_format {f : Format} {d s : LogFormat} {x : Option Value} :
    orElse (Kind.format.ofValue? f) (.format d) x = some (.format s) ↔
      orElse (logFormat? f) d x = some s :=
  orElse_map fun _ _ => Setting.format.inj

/-- A section that is written is a record of its fields, and each key in it reads as in `s`, where
it is left out as in `d`. -/
structure ReadsAs (f : Format) (d s : Settings) (v : Value) (t : Section) : Prop where
  fields : ∀ x, v.partAt? t.route = some x → Fields f t.names x
  reads : ∀ k ∈ t.keys, orElse (k.kind.ofValue? f) (k.get d) (v.partAt? k.route) = some (k.get s)

theorem partAt?_key {v : Value} {t : Section} {k : Key} (hk : k ∈ t.keys) :
    v.partAt? k.route = (v.partAt? t.route).bind (·.part? t.names k.name) := by
  rw [Key.route_of_mem hk, Value.partAt?_concat]

section Reading

variable {f : Format} {d s : Settings} {v : Value}

theorem readsAs_of_none {t : Section} (hv : v.partAt? t.route = none) :
    ReadsAs f d s v t ↔ ∀ k ∈ t.keys, k.get d = k.get s := by
  have hkey : ∀ k ∈ t.keys, v.partAt? k.route = none := by
    intro k hk
    rw [partAt?_key hk, hv]
    rfl
  constructor
  · intro h k hk
    have hread := h.reads k hk
    rw [hkey k hk] at hread
    exact Option.some.inj hread
  · intro h
    refine ⟨fun x hx => ?_, fun k hk => ?_⟩
    · rw [hv] at hx
      cases hx
    · rw [hkey k hk, orElse, h k hk]

theorem readsAs_of_some {t : Section} {x : Value} (hv : v.partAt? t.route = some x) :
    ReadsAs f d s v t ↔ Fields f t.names x ∧ ∀ k ∈ t.keys,
      orElse (k.kind.ofValue? f) (k.get d) (x.part? t.names k.name) = some (k.get s) := by
  have hkey : ∀ k ∈ t.keys, v.partAt? k.route = x.part? t.names k.name := by
    intro k hk
    rw [partAt?_key hk, hv, Option.bind_some]
  constructor
  · intro h
    refine ⟨h.fields x hv, fun k hk => ?_⟩
    rw [← hkey k hk]
    exact h.reads k hk
  · rintro ⟨hfields, hreads⟩
    refine ⟨fun y hy => ?_, fun k hk => ?_⟩
    · rw [hv] at hy
      cases hy
      exact hfields
    · rw [hkey k hk]
      exact hreads k hk

theorem readsAs_iff {α : Type} {t : Section} {read : Value → Option α}
    (part : Settings → α) (hpart : part d = part s ↔ ∀ k ∈ t.keys, k.get d = k.get s)
    (hread : ∀ x, read x = some (part s) ↔ Fields f t.names x ∧ ∀ k ∈ t.keys,
      orElse (k.kind.ofValue? f) (k.get d) (x.part? t.names k.name) = some (k.get s)) :
    orElse read (part d) (v.partAt? t.route) = some (part s) ↔ ReadsAs f d s v t := by
  cases hx : v.partAt? t.route with
  | none => rw [readsAs_of_none hx, orElse, Option.some_inj, hpart]
  | some x => rw [readsAs_of_some hx, orElse, hread]

theorem readsAs_validation :
    orElse (policyOf? d.validation f) d.validation (v.partAt? Section.validation.route) =
        some s.validation ↔
      ReadsAs f d s v .validation := by
  refine readsAs_iff Settings.validation ?_ ?_
  · simp [Section.keys, Key.get, Policy.ext_iff]
  · intro x
    rw [policyOf?_eq_some_iff]
    simp only [Section.keys, List.forall_mem_cons, Key.kind, Key.get, orElse_flag]
    simp [Key.name, Key.path]

theorem readsAs_docs :
    orElse (docsOf? d.docs f) d.docs (v.partAt? Section.docs.route) = some s.docs ↔
      ReadsAs f d s v .docs := by
  refine readsAs_iff Settings.docs ?_ ?_
  · simp [Section.keys, Key.get, DocsSettings.ext_iff, Docs.BasicInfo.ext_iff, and_assoc]
  · intro x
    rw [docsOf?_eq_some_iff]
    simp only [Section.keys, List.forall_mem_cons, Key.kind, Key.get, orElse_text, orElse_texts]
    simp [Key.name, Key.path]

theorem readsAs_logging :
    orElse (loggingOf? d.telemetry.logging f) d.telemetry.logging
        (v.partAt? Section.logging.route) = some s.telemetry.logging ↔
      ReadsAs f d s v .logging := by
  refine readsAs_iff (fun s => s.telemetry.logging) ?_ ?_
  · simp [Section.keys, Key.get, LoggingSettings.ext_iff]
  · intro x
    rw [loggingOf?_eq_some_iff]
    simp only [Section.keys, List.forall_mem_cons, Key.kind, Key.get, orElse_flag, orElse_text,
      orElse_format]
    simp [Key.name, Key.path]

theorem readsAs_metrics :
    orElse (metricsOf? d.telemetry.metrics f) d.telemetry.metrics
        (v.partAt? Section.metrics.route) = some s.telemetry.metrics ↔
      ReadsAs f d s v .metrics := by
  refine readsAs_iff (fun s => s.telemetry.metrics) ?_ ?_
  · simp [Section.keys, Key.get]
  · intro x
    rw [metricsOf?_eq_some_iff]
    simp only [Section.keys, List.forall_mem_cons, Key.kind, Key.get, orElse_flag]
    simp [Key.name, Key.path]

theorem readsAs_telemetry :
    orElse (telemetryOf? d.telemetry f) d.telemetry (v.partAt? Section.telemetry.route) =
        some s.telemetry ↔
      ReadsAs f d s v .telemetry ∧ ReadsAs f d s v .logging ∧ ReadsAs f d s v .metrics := by
  have hinner (name : String) :
      v.partAt? (Section.telemetry.route ++ [(Section.telemetry.names, name)]) = _ :=
    Value.partAt?_concat v _ _ name
  rw [← readsAs_logging, ← readsAs_metrics]
  have hl : v.partAt? Section.logging.route = _ := hinner "logging"
  have hm : v.partAt? Section.metrics.route = _ := hinner "metrics"
  rw [hl, hm]
  cases hx : v.partAt? Section.telemetry.route with
  | none =>
    rw [readsAs_of_none hx]
    simp [orElse, Section.keys, Key.get, TelemetrySettings.ext_iff]
  | some x =>
    rw [readsAs_of_some hx, orElse, telemetryOf?_eq_some_iff]
    simp only [Section.keys, List.forall_mem_cons, Key.kind, Key.get, orElse_text]
    simp [Key.name, Key.path, and_assoc]

theorem ofValue?_readsAs : ofValue? d f v = some s ↔ ∀ t, ReadsAs f d s v t := by
  have hinner (name : String) : v.partAt? [(Section.root.names, name)] = _ :=
    Value.partAt?_concat v [] _ name
  have hvalidation : v.partAt? Section.validation.route = _ := hinner "validation"
  have hdocs : v.partAt? Section.docs.route = _ := hinner "docs"
  have htelemetry : v.partAt? Section.telemetry.route = _ := hinner "telemetry"
  have hroot : ReadsAs f d s v .root ↔ Fields f Section.root.names v := by
    rw [readsAs_of_some rfl]
    exact and_iff_left nofun
  have hparts : ofValue? d f v = some s ↔ ReadsAs f d s v .root ∧ ReadsAs f d s v .validation ∧
      ReadsAs f d s v .docs ∧
      ReadsAs f d s v .telemetry ∧ ReadsAs f d s v .logging ∧ ReadsAs f d s v .metrics := by
    rw [ofValue?_eq_some_iff, hroot, ← readsAs_validation, ← readsAs_docs, ← readsAs_telemetry,
      hvalidation, hdocs, htelemetry]
    rfl
  rw [hparts]
  constructor
  · rintro ⟨hr, hv, hd, ht, hl, hm⟩ t
    cases t <;> assumption
  · intro h
    exact ⟨h _, h _, h _, h _, h _, h _⟩

theorem ofValue?_sectioned :
    ofValue? d f v = some s ↔ Sectioned f v ∧
      ∀ k : Key, orElse (k.kind.ofValue? f) (k.get d) (v.partAt? k.route) = some (k.get s) := by
  rw [ofValue?_readsAs]
  constructor
  · intro h
    exact ⟨fun t => (h t).fields, fun k => (h k.home).reads k k.mem_home⟩
  · rintro ⟨hfields, hreads⟩ t
    exact ⟨hfields t, fun k _ => hreads k⟩

end Reading

section Tables

variable {f : Format} {d s : Settings} {v : Value}

def isTable : Value → Bool
  | .object _ => true
  | _ => false

theorem isTable_iff {x : Value} : isTable x = true ↔ ∃ m, x = .object m := by
  cases x <;> simp [isTable]

/-- Every section that is written is a table. -/
def Tabular (v : Value) : Prop :=
  ∀ (t : Section) (x : Value), v.at? t.path = some x → ∃ m, x = .object m

instance (v : Value) : Decidable (Tabular v) :=
  decidable_of_iff (∀ t ∈ Section.all, ∀ x ∈ v.at? t.path, isTable x = true)
    ⟨fun h t x hx => isTable_iff.mp (h t t.mem_all x hx),
      fun h t _ x hx => isTable_iff.mpr (h t x hx)⟩

/-- Every section that is written is a table of known keys. -/
def Shaped (v : Value) : Prop :=
  ∀ (t : Section) (x : Value), v.at? t.path = some x → ∃ m, x = .object m ∧ Known t.names m

theorem Tabular.concat (hv : Tabular v) (t : Section) (name : String) (ht : v.ByName t.route) :
    v.ByName (t.route ++ [(t.names, name)]) :=
  ht.concat (fun x hx => hv t x (t.route_path ▸ hx)) t.names name

theorem Tabular.byName_section (hv : Tabular v) (t : Section) : v.ByName t.route :=
  Section.route_induction (motive := v.ByName) v.byName_nil hv.concat t

theorem Tabular.byName_key (hv : Tabular v) (k : Key) : v.ByName k.route :=
  Key.route_induction (motive := v.ByName) v.byName_nil hv.concat k

theorem Tabular.partAt?_section (hv : Tabular v) (t : Section) :
    v.partAt? t.route = v.at? t.path :=
  t.route_path ▸ (hv.byName_section t).1

theorem Tabular.partAt?_key (hv : Tabular v) (k : Key) : v.partAt? k.route = v.at? k.path :=
  k.route_path ▸ (hv.byName_key k).1

theorem Tabular.sectioned_iff (hv : Tabular v) : Sectioned f v ↔ Shaped v := by
  constructor
  · intro h t x hx
    obtain ⟨m, rfl⟩ := hv t x hx
    exact ⟨m, rfl, h t _ ((hv.partAt?_section t).trans hx)⟩
  · intro h t x hx
    obtain ⟨m, rfl, hm⟩ := h t x ((hv.partAt?_section t).symm.trans hx)
    exact hm

theorem ofValue?_reads (hv : Tabular v) :
    ofValue? d f v = some s ↔ Shaped v ∧
      ∀ k : Key, orElse (k.kind.ofValue? f) (k.get d) (v.at? k.path) = some (k.get s) := by
  rw [ofValue?_sectioned, hv.sectioned_iff]
  simp only [hv.partAt?_key]

end Tables

end Settings

end Covenant
