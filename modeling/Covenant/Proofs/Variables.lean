import Covenant.Proofs.SettingsByKey

namespace Covenant

namespace Text

def stepLetters : List Char := "abcdefghijklmnopqrstuvwxyz_".toList

theorem upper_stepLetter {c : Char} (h : c ∈ stepLetters) :
    mapCase upperRuns upperExpansions c = [c.toUpper] := by
  have hall : stepLetters.all fun c => mapCase upperRuns upperExpansions c = [c.toUpper] := by
    decide +kernel
  exact of_decide_eq_true (List.all_eq_true.mp hall c h)

theorem upper_of_stepLetters {s : String} (h : ∀ c ∈ s.toList, c ∈ stepLetters) :
    upper s = String.ofList (s.toList.map Char.toUpper) := by
  have hchars : ∀ cs : List Char, (∀ c ∈ cs, c ∈ stepLetters) →
      cs.flatMap (mapCase upperRuns upperExpansions) = cs.map Char.toUpper := by
    intro cs hcs
    rw [List.map_eq_flatMap]
    exact List.flatMap_congr fun c hc => upper_stepLetter (hcs c hc)
  rw [upper, hchars _ h]

end Text

namespace Settings

namespace Key

/-- What the name of a variable has behind the prefix. -/
def suffix (k : Key) : String := "__".intercalate (k.path.map Text.upper)

theorem variableName_eq (pre : String) (k : Key) :
    k.variableName pre = pre ++ "__" ++ k.suffix := by
  have hpath : k.path.map Text.upper ≠ [] := by cases k <;> simp [path]
  exact String.intercalate_cons_of_ne_nil hpath

theorem path_upper (k : Key) :
    k.path.map Text.upper =
      k.path.map fun step => String.ofList (step.toList.map Char.toUpper) := by
  have hletters : k.path.all fun step => step.toList.all (· ∈ Text.stepLetters) := by
    cases k <;> decide +kernel
  refine List.map_congr_left fun step hstep => Text.upper_of_stepLetters fun c hc => ?_
  have hstep' := List.all_eq_true.mp hletters step hstep
  exact of_decide_eq_true (List.all_eq_true.mp hstep' c hc)

theorem mem_all (k : Key) : k ∈ all := by
  cases k <;> decide

theorem suffix_injective : Function.Injective suffix := by
  have hn : (all.map suffix).Nodup := by
    unfold suffix
    simp only [path_upper]
    decide +kernel
  intro k k' h
  exact List.inj_on_of_nodup_map hn k.mem_all k'.mem_all h

theorem variableName_injective (pre : String) : Function.Injective (variableName pre) := by
  intro k k' h
  rw [variableName_eq, variableName_eq] at h
  exact suffix_injective ((String.append_right_inj _).mp h)

theorem variableName_of_ofVariable? {pre name : String} {k : Key}
    (h : ofVariable? pre name = some k) : k.variableName pre = name := by
  rw [ofVariable?] at h
  have hfound := List.find?_some h
  exact of_decide_eq_true hfound

theorem ofVariable?_eq_some_iff {pre name : String} {k : Key} :
    ofVariable? pre name = some k ↔ k.variableName pre = name := by
  refine ⟨variableName_of_ofVariable?, ?_⟩
  rintro rfl
  cases h : ofVariable? pre (k.variableName pre) with
  | none =>
    rw [ofVariable?, List.find?_eq_none] at h
    exact absurd (decide_eq_true rfl) (h k k.mem_all)
  | some k' => rw [variableName_injective pre (variableName_of_ofVariable? h)]

theorem setFlag_eq_ok {text : String} {set : Bool → Settings} {s : Settings}
    (h : setFlag text set = .ok s) : ∃ b, flag? text = some b ∧ set b = s := by
  rw [setFlag] at h
  cases hb : flag? text with
  | none =>
    rw [hb] at h
    cases h
  | some b =>
    rw [hb] at h
    cases h
    exact ⟨b, rfl, rfl⟩

theorem set_eq_ok {k : Key} {text : String} {s s' : Settings} (h : k.set text s = .ok s') :
    k.kind.ofVariable? text = some (k.get s') ∧ ∀ k' ≠ k, k'.get s' = k'.get s := by
  cases k with
  | validateRequests | validateResponses | enforceResponses | rejectMissingFields
  | allowUndeclaredStatus | logEnabled | metrics =>
    obtain ⟨b, hb, rfl⟩ := setFlag_eq_ok h
    refine ⟨congrArg (Option.map Setting.flag) hb, fun k' hk => ?_⟩
    cases k' <;> first | rfl | exact absurd rfl hk
  | host | title | version | basePath | outputPath | service | logLevel | schemes =>
    cases h
    refine ⟨rfl, fun k' hk => ?_⟩
    cases k' <;> first | rfl | exact absurd rfl hk
  | logFormat =>
    rw [set] at h
    cases hf : LogFormat.ofName? (Text.lower text) with
    | none =>
      rw [hf] at h
      cases h
    | some f =>
      rw [hf] at h
      cases h
      refine ⟨congrArg (Option.map Setting.format) hf, fun k' hk => ?_⟩
      cases k' <;> first | rfl | exact absurd rfl hk

end Key

/-- A variable settles the key it names, if any, and no other. -/
theorem withVariables_cons {pre name text : String} {rest : List (String × String)}
    {s s' : Settings} (h : s.withVariables pre ((name, text) :: rest) = .ok s') :
    ∃ s₁ : Settings, s₁.withVariables pre rest = .ok s' ∧ ∀ k : Key,
      if k.variableName pre = name then k.kind.ofVariable? text = some (k.get s₁)
      else k.get s₁ = k.get s := by
  rw [withVariables] at h
  split at h
  · next hnone =>
    refine ⟨s, h, fun k => ?_⟩
    rw [if_neg]
    intro hk
    rw [Key.ofVariable?_eq_some_iff.mpr hk] at hnone
    cases hnone
  · next key hkey =>
    have hname := Key.variableName_of_ofVariable? hkey
    split at h
    · next s₁ hset =>
      obtain ⟨hown, hothers⟩ := Key.set_eq_ok hset
      refine ⟨s₁, h, fun k => ?_⟩
      split
      · next hk =>
        rw [← hname] at hk
        cases Key.variableName_injective pre hk
        exact hown
      · next hk =>
        apply hothers
        rintro rfl
        exact hk hname
    · cases h

theorem withVariables_eq_ok {pre : String} {entries : List (String × String)}
    (hn : (entries.map (·.1)).Nodup) {s s' : Settings}
    (h : s.withVariables pre entries = .ok s') (k : Key) :
    (entries.lookup (k.variableName pre)).elim (some (k.get s)) k.kind.ofVariable? =
      some (k.get s') := by
  induction entries generalizing s with
  | nil =>
    cases h
    rfl
  | cons e rest ih =>
    obtain ⟨name, text⟩ := e
    rw [List.map_cons, List.nodup_cons] at hn
    obtain ⟨s₁, hrest, hkeys⟩ := withVariables_cons h
    have hkept := ih hn.2 hrest
    specialize hkeys k
    rw [Entries.lookup_cons_ite]
    by_cases hk : k.variableName pre = name
    · -- no later variable has the name, so the key keeps what it was given
      rw [if_pos hk] at hkeys
      rw [hk, Entries.lookup_eq_none hn.1] at hkept
      rw [hk, if_pos (beq_self_eq_true name)]
      exact hkeys.trans hkept
    · rw [if_neg hk] at hkeys
      rw [if_neg (by simpa using hk), ← hkeys]
      exact hkept

end Settings

end Covenant
