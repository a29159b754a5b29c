import Covenant.Proofs.Outcome
import Covenant.Proofs.Splitting
import Covenant.Proofs.Variables

namespace Covenant.Settings

namespace Key

/-- The prefix, a double underscore, and the steps to the key in capital letters with double
underscores between them. -/
def Named (k : Key) (pre name : String) : Prop :=
  ∃ rest, name = pre ++ "__" ++ String.ofList rest ∧
    (Text.splitAtPairs '_' rest).map String.ofList = k.path.map Text.upper

theorem splitAtPairs_suffix (k : Key) :
    (Text.splitAtPairs '_' k.suffix.toList).map String.ofList = k.path.map Text.upper := by
  rw [suffix, path_upper]
  cases k <;> decide +kernel

theorem named_iff {k : Key} {pre name : String} : k.Named pre name ↔ k.variableName pre = name := by
  rw [variableName_eq]
  constructor
  · rintro ⟨rest, rfl, hrest⟩
    -- joining the steps gives back what was cut
    have hjoined : "__".intercalate ((Text.splitAtPairs '_' rest).map String.ofList) =
        String.ofList rest := by
      apply String.toList_injective
      have htexts : ((Text.splitAtPairs '_' rest).map String.ofList).map String.toList =
          Text.splitAtPairs '_' rest := by simp [Function.comp_def]
      rw [String.toList_intercalate, htexts, String.toList_ofList (l := rest)]
      exact Text.intercalate_splitAtPairs '_' rest
    rw [← hjoined, hrest, suffix]
  · rintro rfl
    exact ⟨k.suffix.toList, by rw [String.ofList_toList], k.splitAtPairs_suffix⟩

end Key

namespace Kind

/-- The text is a spelling of the value. -/
inductive Spells : Kind → String → Setting → Prop
  | on {text : String} (h : Text.lower text ∈ ["true", "1", "yes", "on"]) :
      Spells .flag text (.flag true)
  | off {text : String} (h : Text.lower text ∈ ["false", "0", "no", "off"]) :
      Spells .flag text (.flag false)
  | text (text : String) : Spells .text text (.text text)
  | texts {text : String} {parts : List (List Char)} (hne : parts ≠ [])
      (h : ∀ part ∈ parts, ',' ∉ part) (htext : text.toList = [','].intercalate parts) :
      Spells .texts text (.texts (((parts.map Text.trim).filter (!·.isEmpty)).map
        fun part => Text.lower (String.ofList part)))
  | format {text : String} {f : LogFormat} (h : Text.lower text = f.name) :
      Spells .format text (.format f)

def spellings? : Kind → Option (List String)
  | .flag => some ["true", "1", "yes", "on", "false", "0", "no", "off"]
  | .format => some ["json", "pretty"]
  | .text | .texts => none

theorem flag?_eq_some_iff {text : String} {b : Bool} :
    flag? text = some b ↔
      Text.lower text ∈ if b then ["true", "1", "yes", "on"] else ["false", "0", "no", "off"] := by
  rw [flag?]
  grind

theorem ofName?_eq_some_iff {text : String} {f : LogFormat} :
    LogFormat.ofName? text = some f ↔ text = f.name := by
  cases f <;> grind [LogFormat.ofName?, LogFormat.name]

theorem ofVariable?_eq_some_iff {kind : Kind} {text : String} {x : Setting} :
    kind.ofVariable? text = some x ↔ kind.Spells text x := by
  constructor
  · intro h
    cases kind with
    | flag =>
      obtain ⟨b, hb, rfl⟩ := Option.map_eq_some_iff.mp h
      rw [flag?_eq_some_iff] at hb
      cases b with
      | true => exact .on hb
      | false => exact .off hb
    | text =>
      cases h
      exact .text text
    | texts =>
      cases h
      exact .texts (Text.splitAt_ne_nil _) (fun _ => Text.not_mem_of_mem_splitAt)
        (Text.intercalate_splitAt ',' text.toList).symm
    | format =>
      obtain ⟨f, hf, rfl⟩ := Option.map_eq_some_iff.mp h
      exact .format (ofName?_eq_some_iff.mp hf)
  · intro h
    cases h with
    | on h => exact congrArg (Option.map _) (flag?_eq_some_iff.mpr h)
    | off h => exact congrArg (Option.map _) (flag?_eq_some_iff.mpr h)
    | text => rfl
    | texts hne h htext =>
      rw [ofVariable?, schemeList, htext, Text.splitAt_intercalate hne h]
    | format h => exact congrArg (Option.map _) (ofName?_eq_some_iff.mpr h)

theorem ofVariable?_eq_none_iff {kind : Kind} {text : String} :
    kind.ofVariable? text = none ↔
      ∃ words, kind.spellings? = some words ∧ Text.lower text ∉ words := by
  cases kind with
  | flag =>
    simp only [ofVariable?, Option.map_eq_none_iff, spellings?, Option.some.injEq, exists_eq_left']
    grind [flag?]
  | text => simp [ofVariable?, spellings?]
  | texts => simp [ofVariable?, spellings?]
  | format =>
    simp only [ofVariable?, Option.map_eq_none_iff, spellings?, Option.some.injEq, exists_eq_left']
    grind [LogFormat.ofName?]

end Kind

theorem Key.set_isOk {k : Key} {text : String} (s : Settings) :
    (∃ s', k.set text s = .ok s') ↔ ∃ x, k.kind.ofVariable? text = some x := by
  cases k with
  | validateRequests | validateResponses | enforceResponses | rejectMissingFields
  | allowUndeclaredStatus | logEnabled | metrics =>
    rw [set, setFlag, kind, Kind.ofVariable?]
    cases flag? text <;> simp
  | host | title | version | basePath | outputPath | service | logLevel | schemes =>
    simp [set, kind, Kind.ofVariable?]
  | logFormat =>
    rw [set, kind, Kind.ofVariable?]
    cases LogFormat.ofName? (Text.lower text) <;> simp

section Variables

variable {s s' : Settings} {pre : String} {entries other : List (String × String)}

theorem withVariables_append (s : Settings) (pre : String) (entries more : List (String × String)) :
    s.withVariables pre (entries ++ more) =
      s.withVariables pre entries >>= fun s' => s'.withVariables pre more := by
  induction entries generalizing s with
  | nil => rfl
  | cons e rest ih =>
    obtain ⟨name, text⟩ := e
    rw [List.cons_append, withVariables, withVariables]
    cases Key.ofVariable? pre name with
    | none => exact ih s
    | some key =>
      dsimp only
      cases key.set text s with
      | ok s' => exact ih s'
      | error expected => rfl

theorem withVariables_without {name text : String} (h : ∀ k : Key, ¬k.Named pre name)
    (before after : List (String × String)) :
    s.withVariables pre (before ++ (name, text) :: after) =
      s.withVariables pre (before ++ after) := by
  have hnone : Key.ofVariable? pre name = none := by
    rw [Option.eq_none_iff_forall_ne_some]
    intro k hk
    exact h k (Key.named_iff.mpr (Key.variableName_of_ofVariable? hk))
  rw [withVariables_append, withVariables_append]
  refine congrArg _ (funext fun s' => ?_)
  rw [withVariables, hnone]

/-- Every variable that names a key says something that the key can be. -/
def Fitting (pre : String) (entries : List (String × String)) : Prop :=
  ∀ name text, (name, text) ∈ entries → ∀ k : Key, k.variableName pre = name →
    ∃ x, k.kind.ofVariable? text = some x

theorem withVariables_isOk :
    (∃ s', s.withVariables pre entries = .ok s') ↔ Fitting pre entries := by
  induction entries generalizing s with
  | nil => exact iff_of_true ⟨s, rfl⟩ nofun
  | cons e rest ih =>
    obtain ⟨name, text⟩ := e
    have hcons : Fitting pre ((name, text) :: rest) ↔
        (∀ k : Key, k.variableName pre = name → ∃ x, k.kind.ofVariable? text = some x) ∧
          Fitting pre rest := by
      simp only [Fitting, List.mem_cons, Prod.mk.injEq]
      constructor
      · intro h
        exact ⟨h name text (.inl ⟨rfl, rfl⟩), fun n t hmem => h n t (.inr hmem)⟩
      · rintro ⟨hfirst, hrest⟩ n t (⟨rfl, rfl⟩ | hmem)
        · exact hfirst
        · exact hrest n t hmem
    rw [hcons, withVariables]
    cases hk : Key.ofVariable? pre name with
    | none =>
      refine ih.trans (and_iff_right ?_).symm
      intro k hname
      cases (Key.ofVariable?_eq_some_iff.mpr hname).symm.trans hk
    | some key =>
      have hname := Key.variableName_of_ofVariable? hk
      have hfirst : (∀ k : Key, k.variableName pre = name →
          ∃ x, k.kind.ofVariable? text = some x) ↔ ∃ s', key.set text s = .ok s' := by
        rw [Key.set_isOk]
        refine ⟨fun h => h key hname, fun h k hk' => ?_⟩
        cases Key.variableName_injective pre (hk'.trans hname.symm)
        exact h
      rw [hfirst]
      dsimp only
      cases key.set text s with
      | ok s₁ => simpa using ih
      | error expected => simp

/-- Which settings come of the variables depends on which variables there are, and not on their
order. -/
theorem withVariables_eq_ok_iff (hn : (entries.map (·.1)).Nodup) :
    s.withVariables pre entries = .ok s' ↔ Fitting pre entries ∧ ∀ k : Key,
      (∀ name text, (name, text) ∈ entries → k.variableName pre = name →
        k.kind.ofVariable? text = some (k.get s')) ∧
      ((∀ e ∈ entries, k.variableName pre ≠ e.1) → k.get s' = k.get s) := by
  have hrun : ∀ {r : Settings}, s.withVariables pre entries = .ok r → ∀ k : Key,
      (∀ name text, (name, text) ∈ entries → k.variableName pre = name →
        k.kind.ofVariable? text = some (k.get r)) ∧
      ((∀ e ∈ entries, k.variableName pre ≠ e.1) → k.get r = k.get s) := by
    intro r h k
    have hget := withVariables_eq_ok hn h k
    constructor
    · rintro name text hmem rfl
      rw [(Entries.lookup_eq_some_iff hn).mpr hmem] at hget
      exact hget
    · intro hnone
      have hnot : k.variableName pre ∉ entries.map (·.1) := by
        intro hmem
        obtain ⟨e, he, hname⟩ := List.mem_map.mp hmem
        exact hnone e he hname.symm
      rw [Entries.lookup_eq_none hnot] at hget
      exact (Option.some.inj hget).symm
  constructor
  · intro h
    exact ⟨withVariables_isOk.mp ⟨s', h⟩, hrun h⟩
  · rintro ⟨hfit, hkeys⟩
    obtain ⟨r, hr⟩ := withVariables_isOk.mpr hfit
    rw [hr]
    refine congrArg _ (ext_get fun k => ?_)
    by_cases hnone : ∀ e ∈ entries, k.variableName pre ≠ e.1
    · rw [(hrun hr k).2 hnone, (hkeys k).2 hnone]
    · push Not at hnone
      obtain ⟨⟨name, text⟩, hmem, hname⟩ := hnone
      have hown := (hrun hr k).1 name text hmem hname
      exact Option.some.inj (hown.symm.trans ((hkeys k).1 name text hmem hname))

theorem withVariables_perm (hn : (entries.map (·.1)).Nodup) (hperm : other.Perm entries) :
    s.withVariables pre other = .ok s' ↔ s.withVariables pre entries = .ok s' := by
  have hn' : (other.map (·.1)).Nodup := (hperm.map _).nodup_iff.mpr hn
  rw [withVariables_eq_ok_iff hn, withVariables_eq_ok_iff hn']
  simp only [Fitting, hperm.mem_iff]

end Variables

/-- Of variables with distinct names the order does not matter: in any order they can be applied or
not, and give the same settings. They cannot just if one of them names a key that is on or off, or
the log format, and says something else, in small letters, than the spellings of these. If they can,
each key has the value that its variable spells, or the one it had if no variable names it; and one
that names no key might as well not be there. -/
theorem variables_in_any_order (s : Settings) (pre : String) (entries : List (String × String))
    (hn : (entries.map (·.1)).Nodup) :
    (∀ other : List (String × String), other.Perm entries → ∀ s',
      s.withVariables pre other = .ok s' ↔ s.withVariables pre entries = .ok s') ∧
    ((∃ e, s.withVariables pre entries = .error e) ↔
      ∃ name text, (name, text) ∈ entries ∧ ∃ k : Key, k.Named pre name ∧
        ∃ words, k.kind.spellings? = some words ∧ Text.lower text ∉ words) ∧
    (∀ s', s.withVariables pre entries = .ok s' → ∀ k : Key,
      (∀ name text, (name, text) ∈ entries → k.Named pre name →
        k.kind.Spells text (k.get s')) ∧
      ((∀ e ∈ entries, ¬k.Named pre e.1) → k.get s' = k.get s)) ∧
    ∀ before name text after, entries = before ++ (name, text) :: after →
      (∀ k : Key, ¬k.Named pre name) →
      s.withVariables pre (before ++ after) = s.withVariables pre entries := by
  refine ⟨fun other hperm s' => withVariables_perm hn hperm, ?_, ?_, ?_⟩
  · have hfails : (∃ e, s.withVariables pre entries = .error e) ↔ ¬Fitting pre entries := by
      rw [← withVariables_isOk (s := s)]
      cases s.withVariables pre entries <;> simp
    rw [hfails, Fitting]
    push Not
    simp only [Key.named_iff, ← Kind.ofVariable?_eq_none_iff, Option.eq_none_iff_forall_ne_some]
  · intro s' h k
    simp only [Key.named_iff, ← Kind.ofVariable?_eq_some_iff]
    exact ((withVariables_eq_ok_iff hn).mp h).2 k
  · rintro before name text after rfl hnone
    exact (withVariables_without hnone before after).symm

/-- Schemes and a flag, with a name that only looks like a key, in both orders; a log format that is
none spoils them all. -/
theorem production_overridden :
    let schemes := ("MIYABI__DOCS__SCHEMES", " HTTPS, ,ws")
    let flag := ("MIYABI__VALIDATION__ENFORCE_RESPONSES", "On")
    let lookalike := ("MIYABI___DOCS__HOST", "example.org")
    let format := ("MIYABI__TELEMETRY__LOGGING__FORMAT", "xml")
    let s : Settings :=
      { validation := { Policy.production with enforceResponses := true }
        docs := { info := ⟨"localhost:8080", "Miyabi API", "0.1.0", ["https", "ws"], "/"⟩ } }
    ([schemes, flag, lookalike].map (·.1)).Nodup ∧
    production.withVariables "MIYABI" [schemes, flag, lookalike] = .ok s ∧
    production.withVariables "MIYABI" [lookalike, flag, schemes] = .ok s ∧
    production.withVariables "MIYABI" [schemes, flag] = .ok s ∧
    Kind.texts.Spells " HTTPS, ,ws" (.texts ["https", "ws"]) ∧
    ∃ e, production.withVariables "MIYABI" [format, schemes, flag, lookalike] = .error e := by
  intro schemes flag lookalike format s
  have hn : ([schemes, flag, lookalike].map (·.1)).Nodup := by decide
  have hs : production.withVariables "MIYABI" [schemes, flag, lookalike] = .ok s := by
    decide +kernel
  obtain ⟨hperm, -, hkeys, hwithout⟩ :=
    variables_in_any_order production "MIYABI" [schemes, flag, lookalike] hn
  have hfails := (variables_in_any_order production "MIYABI" [format, schemes, flag, lookalike]
    (by decide)).2.1
  refine ⟨hn, hs, (hperm _ (List.reverse_perm _) s).mpr hs, ?_, ?_, ?_⟩
  · refine (hwithout [schemes, flag] _ _ [] rfl fun k hk => ?_).trans hs
    have hname := Key.named_iff.mp hk
    revert hname
    cases k <;> decide +kernel
  · exact (hkeys s hs .schemes).1 _ _ List.mem_cons_self
      (Key.named_iff.mpr (by decide +kernel))
  · exact hfails.mpr ⟨_, _, List.mem_cons_self, .logFormat, Key.named_iff.mpr (by decide +kernel),
      _, rfl, by decide +kernel⟩

end Covenant.Settings
