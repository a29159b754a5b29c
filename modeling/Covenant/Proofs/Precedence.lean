import Covenant.Proofs.Layers
import Covenant.Proofs.Outcome
import Covenant.Proofs.Variables
import Covenant.Settings.Loading

namespace Covenant.Settings

open Json (Value)

/-- The format and the value of a text. -/
def layerOf? (content format : String) : Option (Format × Value) := do
  let f ← Format.ofName? (Text.lower format)
  let v ← f.value? content
  return (f, v)

theorem layerOf?_eq_some_iff {content format : String} {f : Format} {v : Value} :
    layerOf? content format = some (f, v) ↔
      Format.ofName? (Text.lower format) = some f ∧ f.value? content = some v := by
  simp [layerOf?, Option.bind_eq_some_iff]

/-- The value that a text sets a key to. -/
def Key.inText? (k : Key) (content format : String) : Option Setting := do
  let (f, v) ← layerOf? content format
  let x ← v.at? k.path
  k.kind.ofValue? f x

theorem Key.inText?_of_layer {content format : String} {f : Format} {v : Value}
    (h : layerOf? content format = some (f, v)) (k : Key) :
    k.inText? content format = (v.at? k.path).bind (k.kind.ofValue? f) := by
  rw [inText?, h]
  rfl

namespace LoadStep

/-- The value that a preset or text gives a key. -/
def gives? (k : Key) : LoadStep → Option Setting
  | .preset s => some (k.get s)
  | .text content format => k.inText? content format
  | _ => none

/-- The prefix that is asked for. -/
def pre? : LoadStep → Option String
  | .environment pre => some (Text.upper pre)
  | _ => none

/-- A preset, a prefix, or a text that has its sections as tables. -/
def Plain : LoadStep → Prop
  | .preset _ | .environment _ => True
  | .text content format => ∀ f v, layerOf? content format = some (f, v) → Tabular v
  | _ => False

instance : DecidablePred Plain
  | .preset _ | .environment _ => isTrue trivial
  | .text content format =>
    decidable_of_iff (∀ layer ∈ layerOf? content format, Tabular layer.2)
      ⟨fun h f v hlayer => h (f, v) hlayer, fun h layer hlayer => h layer.1 layer.2 hlayer⟩
  | .file _ | .optionalFile _ | .dotenv | .dotenvFile _ => isFalse id

end LoadStep

/-- The last value that the steps give a key, or its default. -/
def chosen (k : Key) (steps : List LoadStep) : Setting :=
  (steps.filterMap (·.gives? k)).getLast?.getD (k.get .default)

def lastPre? (steps : List LoadStep) : Option String := (steps.filterMap (·.pre?)).getLast?

/-- The variable for a key under the last prefix. -/
def Key.variableText? (k : Key) (e : Environment) (steps : List LoadStep) : Option String :=
  (lastPre? steps).bind fun pre => e.get? (k.variableName pre)

/-- What comes of all steps. -/
def Loading.after (l : Loading) (d : Directory) (steps : List LoadStep) :
    Except LoadError Loading :=
  (l.run d steps).mapError (·.2)

/-- A whole chain: the steps from a new loader on, and then its end. -/
def load (d : Directory) (e : Environment) (steps : List LoadStep) : Except LoadError Settings :=
  (Loading.start e).after d steps >>= Loading.finish

namespace Loading

variable {d : Directory} {l r : Loading}

theorem after_cons (l : Loading) (s : LoadStep) (rest : List LoadStep) :
    l.after d (s :: rest) = l.step d s >>= fun l' => l'.after d rest := by
  rw [after, run]
  cases l.step d s with
  | error err => rfl
  | ok l' =>
    rw [Outcome.ok_bind, after]
    cases h : l'.run d rest <;> simp [h, Except.mapError]

theorem after_append (l : Loading) (steps more : List LoadStep) :
    l.after d (steps ++ more) = l.after d steps >>= fun l' => l'.after d more := by
  induction steps generalizing l with
  | nil => rfl
  | cons s rest ih =>
    rw [List.cons_append, after_cons, after_cons, bind_assoc]
    exact congrArg _ (funext ih)

theorem after_concat (l : Loading) (steps : List LoadStep) (s : LoadStep) :
    l.after d (steps ++ [s]) = l.after d steps >>= fun l' => l'.step d s := by
  rw [after_append]
  congr 1
  funext l'
  rw [after_cons]
  exact bind_pure _

def withPre (l : Loading) (pre : Option String) : Loading := { l with pre := pre }

theorem layer_withPre (l : Loading) (pre : Option String) (f : Format) (text : String) :
    (l.withPre pre).layer f text = (l.layer f text).map (·.withPre pre) := by
  rw [layer, layer, withPre]
  cases l.settings.withLayer f text <;> rfl

theorem layerFile_withPre (l : Loading) (pre : Option String) (path : String) (node : FileNode) :
    (l.withPre pre).layerFile path node = (l.layerFile path node).map (·.withPre pre) := by
  rw [layerFile, layerFile]
  cases node.text? with
  | none => rfl
  | some text =>
    cases fileFormat? path with
    | none => rfl
    | some f => exact layer_withPre l pre f text

theorem loadVariables_withPre (l : Loading) (pre : Option String) (node : FileNode) :
    (l.withPre pre).loadVariables node = (l.loadVariables node).map (·.withPre pre) := by
  rw [loadVariables, loadVariables, withPre]
  cases node.text?.bind (Dotenv.load? l.environment) <;> rfl

/-- No step but the one that asks for a prefix reads or changes it. -/
theorem step_withPre {s : LoadStep} (hs : s.pre? = none) (l : Loading) (pre : Option String) :
    (l.withPre pre).step d s = (l.step d s).map (·.withPre pre) := by
  cases s with
  | preset settings => rfl
  | text content format =>
    rw [step, step, layerText, layerText]
    cases Format.ofName? (Text.lower format) with
    | none => rfl
    | some f => exact layer_withPre l pre f content
  | file path =>
    rw [step, step]
    cases d.find? path with
    | none => rfl
    | some node => exact layerFile_withPre l pre path node
  | optionalFile path =>
    rw [step, step]
    cases d.find? path with
    | none => rfl
    | some node => exact layerFile_withPre l pre path node
  | environment pre' => cases hs
  | dotenv =>
    rw [step, step]
    cases d.find? dotenvName with
    | none => rfl
    | some node =>
      cases node with
      | file content => exact loadVariables_withPre l pre (.file content)
      | _ => rfl
  | dotenvFile path =>
    rw [step, step]
    cases d.find? path with
    | none => rfl
    | some node => exact loadVariables_withPre l pre node

theorem getLast?_filterMap_concat {α β : Type} (f : α → Option β) (xs : List α) (x : α) :
    ((xs ++ [x]).filterMap f).getLast? = (f x).or (xs.filterMap f).getLast? := by
  rw [List.filterMap_append, List.getLast?_append]
  congr 1
  cases h : f x <;> simp [h]

theorem lastPre?_concat (steps : List LoadStep) (s : LoadStep) :
    lastPre? (steps ++ [s]) = s.pre?.or (lastPre? steps) :=
  getLast?_filterMap_concat _ steps s

/-- Prefixes can be asked for after all else: of a chain only the other steps count, and the prefix
that was asked for last. -/
theorem after_eq (l : Loading) (steps : List LoadStep) :
    l.after d steps = (l.after d (steps.filter (·.pre?.isNone))).map
      (·.withPre ((lastPre? steps).or l.pre)) := by
  induction steps using List.reverseRecOn with
  | nil => rfl
  | append_singleton steps s ih =>
    rw [after_concat, ih, lastPre?_concat, List.filter_append]
    cases hs : s.pre? with
    | none =>
      have hkept : [s].filter (·.pre?.isNone) = [s] := by simp [hs]
      rw [hkept, after_concat, Option.none_or]
      cases l.after d (steps.filter (·.pre?.isNone)) with
      | error err => rfl
      | ok r => exact step_withPre hs r _
    | some pre =>
      have hdropped : [s].filter (·.pre?.isNone) = [] := by simp [hs]
      rw [hdropped, List.append_nil]
      cases s with
      | environment pre' =>
        cases hs
        cases l.after d (steps.filter (·.pre?.isNone)) <;> rfl
      | _ => cases hs

theorem after_pre {steps : List LoadStep} (h : l.after d steps = .ok r) :
    r.pre = (lastPre? steps).or l.pre := by
  rw [after_eq] at h
  obtain ⟨_, _, rfl⟩ := Outcome.map_eq_ok.mp h
  rfl

theorem layerText_eq_ok {content format : String} :
    l.layerText content format = .ok r ↔ ∃ f v s, layerOf? content format = some (f, v) ∧
      l.settings.withLayer f content = .ok s ∧ r = { l with settings := s } := by
  rw [layerText]
  constructor
  · intro h
    cases hf : Format.ofName? (Text.lower format) with
    | none => simp [hf] at h
    | some f =>
      simp only [hf, layer] at h
      split at h
      · next s hs =>
        cases h
        cases hv : f.value? content with
        | none => simp [withLayer, hv] at hs
        | some v => exact ⟨f, v, s, layerOf?_eq_some_iff.mpr ⟨hf, hv⟩, hs, rfl⟩
      · cases h
  · rintro ⟨f, v, s, hlayer, hs, rfl⟩
    rw [(layerOf?_eq_some_iff.mp hlayer).1]
    simp only [layer, hs]

theorem step_text {content format : String} :
    l.step d (.text content format) = .ok r ↔ ∃ f v s, layerOf? content format = some (f, v) ∧
      l.settings.withLayer f content = .ok s ∧ r = { l with settings := s } :=
  layerText_eq_ok

theorem step_text_again {content format : String} (hs : (LoadStep.text content format).Plain)
    (h : l.step d (.text content format) = .ok r) : r.step d (.text content format) = .ok r := by
  obtain ⟨f, v, s, hlayer, hsettings, rfl⟩ := step_text.mp h
  have hv := (layerOf?_eq_some_iff.mp hlayer).2
  exact step_text.mpr ⟨f, v, s, hlayer, withLayer_again hv (hs f v hlayer) hsettings, rfl⟩

/-- After a plain step each key has the value that the step gives it, or the one it had. -/
theorem step_gives {s : LoadStep} (hs : s.Plain) (h : l.step d s = .ok r) :
    r.environment = l.environment ∧
      ∀ k : Key, k.get r.settings = (s.gives? k).getD (k.get l.settings) := by
  cases s with
  | preset settings =>
    cases h
    exact ⟨rfl, fun _ => rfl⟩
  | environment pre =>
    cases h
    exact ⟨rfl, fun _ => rfl⟩
  | text content format =>
    obtain ⟨f, v, settings, hlayer, hsettings, rfl⟩ := step_text.mp h
    have hv := (layerOf?_eq_some_iff.mp hlayer).2
    refine ⟨rfl, fun k => ?_⟩
    rw [LoadStep.gives?, Key.inText?_of_layer hlayer]
    have hget := withLayer_get hv (hs f v hlayer) hsettings k
    cases hx : v.at? k.path with
    | none =>
      rw [hx] at hget
      exact (Option.some.inj hget).symm
    | some x =>
      rw [hx] at hget
      exact (congrArg (·.getD (k.get l.settings)) hget).symm
  | _ => exact hs.elim

theorem after_gives {steps : List LoadStep} (hs : ∀ s ∈ steps, s.Plain)
    (h : l.after d steps = .ok r) :
    r.environment = l.environment ∧ ∀ k : Key, k.get r.settings =
      (steps.filterMap (·.gives? k)).getLast?.getD (k.get l.settings) := by
  induction steps using List.reverseRecOn generalizing r with
  | nil =>
    cases h
    exact ⟨rfl, fun _ => rfl⟩
  | append_singleton steps s ih =>
    rw [after_concat] at h
    obtain ⟨r', hr', hstep⟩ := Outcome.bind_eq_ok.mp h
    obtain ⟨henv, hkeys⟩ := ih (fun s hs' => hs s (List.mem_append_left _ hs')) hr'
    obtain ⟨henv', hkeys'⟩ := step_gives (hs s (by simp)) hstep
    refine ⟨henv'.trans henv, fun k => ?_⟩
    rw [hkeys' k, hkeys k, getLast?_filterMap_concat]
    cases s.gives? k <;> rfl

theorem eq_of_checked {s s' : Settings}
    (h : (match s.fault? with
      | some fault => Except.error (LoadError.invalid fault)
      | none => pure s) = Except.ok s') : s = s' := by
  split at h
  · cases h
  · exact Outcome.pure_eq_ok.mp h

theorem finish_get (hn : (l.environment.entries.map (·.1)).Nodup) {s : Settings}
    (h : l.finish = .ok s) (k : Key) :
    (l.pre.bind fun pre => l.environment.get? (k.variableName pre)).elim (some (k.get l.settings))
      k.kind.ofVariable? = some (k.get s) := by
  rw [finish] at h
  split at h
  · next hpre =>
    rw [hpre, ← eq_of_checked h]
    rfl
  · next pre hpre =>
    split at h
    · next s' hvars =>
      rw [hpre, ← eq_of_checked h]
      exact withVariables_eq_ok hn hvars k
    · cases h

end Loading

section Load

variable {d : Directory} {e : Environment} {steps : List LoadStep}

theorem load_get (hn : (e.entries.map (·.1)).Nodup) (hs : ∀ s ∈ steps, s.Plain) {s : Settings}
    (h : load d e steps = .ok s) (k : Key) :
    (k.variableText? e steps).elim (some (chosen k steps)) k.kind.ofVariable? = some (k.get s) := by
  obtain ⟨l, hl, hfinish⟩ := Outcome.bind_eq_ok.mp h
  obtain ⟨henv, hkeys⟩ := Loading.after_gives hs hl
  have hpre := Loading.after_pre hl
  have hget := Loading.finish_get (henv ▸ hn) hfinish k
  rw [hkeys k, hpre, henv] at hget
  rw [← hget, Key.variableText?, chosen]
  cases lastPre? steps <;> rfl

theorem load_eq (d : Directory) (e : Environment) {steps' : List LoadStep}
    (hothers : steps'.filter (·.pre?.isNone) = steps.filter (·.pre?.isNone))
    (hlast : lastPre? steps' = lastPre? steps) : load d e steps' = load d e steps := by
  rw [load, load, Loading.after_eq, hothers, hlast, ← Loading.after_eq]

theorem load_append (before after : List LoadStep) :
    load d e (before ++ after) =
      (Loading.start e).after d before >>= fun l => l.after d after >>= Loading.finish := by
  rw [load, Loading.after_append, bind_assoc]

variable {content format : String} {f : Format} {v : Value}

theorem load_without_keys (hlayer : layerOf? content format = some (f, v)) (ht : Tabular v)
    (ha : (ofValue? .default f v).isSome) (hnone : ∀ k : Key, v.at? k.path = none)
    (before after : List LoadStep) :
    load d e (before ++ .text content format :: after) = load d e (before ++ after) := by
  have hstep (l : Loading) : l.step d (.text content format) = .ok l :=
    Loading.step_text.mpr ⟨f, v, l.settings, hlayer,
      withLayer_without_keys (layerOf?_eq_some_iff.mp hlayer).2 ht ha hnone, rfl⟩
  rw [load_append, load_append]
  refine congrArg _ (funext fun l => ?_)
  rw [Loading.after_cons, hstep, Outcome.ok_bind]

theorem load_again (hs : (LoadStep.text content format).Plain) (before after : List LoadStep) :
    load d e (before ++ .text content format :: .text content format :: after) =
      load d e (before ++ .text content format :: after) := by
  rw [load_append, load_append]
  refine congrArg _ (funext fun l => ?_)
  rw [Loading.after_cons l]
  cases h : l.step d (.text content format) with
  | error err => simp only [Loading.after_cons, h, Outcome.error_bind]
  | ok r => rw [Outcome.ok_bind, Loading.after_cons, Loading.after_cons l, h,
      Loading.step_text_again hs h]

end Load

/-- The value of every key comes from its variable under the last prefix, else from the last preset
or text that gives it one, else it is the default. So it does not matter where a prefix is asked
for, or whether a text is laid over twice; a text without keys might as well not be there, and a
list is never joined with the one below it. -/
theorem load_precedence (d : Directory) (e : Environment) (hn : (e.entries.map (·.1)).Nodup)
    (steps : List LoadStep) (hs : ∀ s ∈ steps, s.Plain) :
    (∀ s, load d e steps = .ok s → ∀ k : Key,
      some (k.get s) = (k.variableText? e steps).elim (some (chosen k steps)) k.kind.ofVariable?) ∧
    (∀ steps', steps'.filter (·.pre?.isNone) = steps.filter (·.pre?.isNone) →
      lastPre? steps' = lastPre? steps → load d e steps' = load d e steps) ∧
    ∀ before content format after, steps = before ++ .text content format :: after →
      load d e (before ++ .text content format :: .text content format :: after) =
        load d e steps ∧
      ∀ f v, layerOf? content format = some (f, v) →
        ((ofValue? .default f v).isSome → (∀ k : Key, v.at? k.path = none) →
          load d e (before ++ after) = load d e steps) ∧
        ∀ l r : Loading, l.step d (.text content format) = .ok r →
          (∀ (k : Key) (x : Value), v.at? k.path = some x →
            k.kind.ofValue? f x = some (k.get r.settings)) ∧
          ∀ items, v.at? Key.schemes.path = some (.array items) →
            items = r.settings.docs.info.schemes.map .string := by
  refine ⟨fun s h k => (load_get hn hs h k).symm, fun steps' => load_eq d e, ?_⟩
  rintro before content format after rfl
  have htext : (LoadStep.text content format).Plain := hs _ (by simp)
  refine ⟨load_again htext before after, fun f v hlayer => ⟨fun ha hnone => ?_, ?_⟩⟩
  · exact (load_without_keys hlayer (htext f v hlayer) ha hnone before after).symm
  · intro l r hstep
    obtain ⟨f', v', s, hlayer', hsettings, rfl⟩ := Loading.step_text.mp hstep
    cases Option.some.inj (hlayer.symm.trans hlayer')
    have hv := (layerOf?_eq_some_iff.mp hlayer).2
    refine ⟨fun k x hx => ?_, fun items => withLayer_schemes hv (htext f v hlayer) hsettings⟩
    have hget := withLayer_get hv (htext f v hlayer) hsettings k
    rw [hx] at hget
    exact hget

/-- A variable over a TOML text over a preset, wherever the prefix is asked for, with the text once or
twice and with or without an empty JSON text. -/
theorem load_from_all_sources :
    let e : Environment := ⟨[("APP__DOCS__HOST", "example.org")]⟩
    let docs : LoadStep := .text "[docs]\nhost = \"a\"\ntitle = \"Users\"\n" "toml"
    let blank : LoadStep := .text "\x7b\x7d" "json"
    let steps := [.environment "app", .preset .development, docs, blank]
    (∃ s, load .empty e steps = .ok s ∧ Key.host.get s = .text "example.org" ∧
      Key.title.get s = .text "Users" ∧ Key.logLevel.get s = .text "debug") ∧
    load .empty e [.preset .development, docs, blank, .environment "app"] = load .empty e steps ∧
    load .empty e [.environment "app", .preset .development, docs, docs, blank] =
      load .empty e steps ∧
    load .empty e [.environment "app", .preset .development, docs] = load .empty e steps := by
  intro e docs blank steps
  have hblank : layerOf? "\x7b\x7d" "json" = some (.json, .object []) :=
    layerOf?_eq_some_iff.mpr ⟨by decide +kernel, by cbv⟩
  have hplain : ∀ s ∈ steps, s.Plain := by decide +kernel
  have hok : (load .empty e steps).toOption.isSome := by decide +kernel
  obtain ⟨s, hs⟩ : ∃ s, load .empty e steps = .ok s := by
    cases h : load .empty e steps with
    | ok s => exact ⟨s, rfl⟩
    | error err =>
      rw [h] at hok
      cases hok
  obtain ⟨hvalue, hmoved, htexts⟩ := load_precedence .empty e (by decide) steps hplain
  have hhost : Key.host.get s = .text "example.org" :=
    Option.some.inj ((hvalue s hs .host).trans (by decide +kernel))
  have htitle : Key.title.get s = .text "Users" :=
    Option.some.inj ((hvalue s hs .title).trans (by decide +kernel))
  have hlevel : Key.logLevel.get s = .text "debug" :=
    Option.some.inj ((hvalue s hs .logLevel).trans (by decide +kernel))
  have htwice := (htexts [.environment "app", .preset .development] _ _ [blank] rfl).1
  have hdropped := ((htexts [.environment "app", .preset .development, docs] _ _ [] rfl).2 _ _
    hblank).1 rfl fun k => by cases k <;> rfl
  exact ⟨⟨s, hs, hhost, htitle, hlevel⟩, hmoved _ rfl rfl, htwice, hdropped⟩

end Covenant.Settings
