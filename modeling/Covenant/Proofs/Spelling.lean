import Covenant.Proofs.Precedence

namespace Covenant.Settings

open Json (Value Members)

theorem Section.agree (t t' : Section) (name : String) :
    Value.Agree t.names t.route (t'.route ++ [(t'.names, name)]) := by
  cases t <;> cases t' <;> simp [Section.route, Value.Agree]

theorem Section.agree_section (t t' : Section) : Value.Agree t.names t.route t'.route := by
  cases t <;> cases t' <;> simp [Section.route, Value.Agree]

theorem Section.route_injective {t t' : Section} (h : t.route = t'.route) : t = t' := by
  cases t <;> cases t' <;> first | rfl | simp [Section.route] at h

theorem Key.not_prefix (k : Key) (t : Section) : ¬ k.route <+: t.route := by
  cases k <;> cases t <;> decide

section Table

variable {names : List String} {items : List Value} {m : Members}

theorem keys_zip_sublist (names : List String) (items : List Value) :
    ((names.zip items).map (·.1)).Sublist names := by
  rw [List.zip_eq_zip_take_min, List.map_fst_zip (by simp)]
  exact List.take_sublist _ _

theorem known_of_perm (hn : names.Nodup) (hm : m.Perm (names.zip items)) : Known names m := by
  have hkeys := hm.map (·.1)
  have hsub := keys_zip_sublist names items
  exact ⟨fun k hk => hsub.subset (hkeys.mem_iff.mp hk), hkeys.nodup_iff.mpr (hsub.nodup hn)⟩

theorem part?_of_perm (hn : names.Nodup) (hm : m.Perm (names.zip items)) (name : String) :
    (Value.object m).part? names name = (Value.array items).part? names name := by
  have hkeys := (known_of_perm hn hm).2
  have hzip := (keys_zip_sublist names items).nodup hn
  ext x
  rw [Value.part?, Value.part?, Value.parts, Value.parts, Entries.lookup_eq_some_iff hkeys,
    Entries.lookup_eq_some_iff hzip, hm.mem_iff]

end Table

theorem Fields.updatePart {f : Format} {names : List String} {x : Value} (h : Fields f names x)
    (names' : List String) (name : String) (g : Value → Value) :
    Fields f names (x.updatePart names' name g) := by
  cases x with
  | object m =>
    have hkeys :
        (m.map fun e => if e.1 = name then (e.1, g e.2) else e).map (·.1) = m.map (·.1) := by
      rw [List.map_map]
      refine List.map_congr_left fun e _ => ?_
      rw [Function.comp_apply]
      split <;> rfl
    rw [Value.updatePart, Fields, Known, hkeys]
    exact h
  | array items =>
    rw [Value.updatePart, Fields, List.length_modify]
    exact h
  | _ => exact h

section Replaced

variable {f : Format} {v : Value} {t : Section} {items : List Value} {m : Members}

theorem partAt?_table (harray : v.partAt? t.route = some (.array items))
    (hm : m.Perm (t.names.zip items)) (k : Key) :
    (v.replaceAt t.route (.object m)).partAt? k.route = v.partAt? k.route :=
  Value.partAt?_replaceAt (t.agree k.home k.name) (k.not_prefix t) harray
    (part?_of_perm t.names_nodup hm)

/-- With a table in the place of the array, every section is a record of its fields still. -/
theorem Sectioned.table (hv : Sectioned f v) (harray : v.partAt? t.route = some (.array items))
    (hm : m.Perm (t.names.zip items)) : Sectioned f (v.replaceAt t.route (.object m)) := by
  intro t' x hx
  by_cases habove : t'.route <+: t.route
  · obtain ⟨τ, hτ⟩ := habove
    rw [← hτ, Value.partAt?_replaceAt_above, Option.map_eq_some_iff] at hx
    obtain ⟨y, hy, rfl⟩ := hx
    cases τ with
    | nil =>
      cases Section.route_injective (hτ.symm.trans (List.append_nil _))
      exact known_of_perm t.names_nodup hm
    | cons step τ => exact (hv t' y hy).updatePart _ _ _
  · rw [Value.partAt?_replaceAt (t.agree_section t') habove harray
      (part?_of_perm t.names_nodup hm)] at hx
    exact hv t' x hx

end Replaced

theorem ofValue?_of_same {f : Format} {v w : Value} {a d : Settings}
    (hkeys : ∀ k : Key, w.partAt? k.route = v.partAt? k.route) (hw : Sectioned f w)
    (h : ofValue? d f v = some a) (d' : Settings) :
    ofValue? d' f w = some (pick (fun k => (v.partAt? k.route).isSome) a d') := by
  refine ofValue?_sectioned.mpr ⟨hw, fun k => ?_⟩
  have hread := (ofValue?_sectioned.mp h).2 k
  rw [hkeys, get_pick]
  cases hx : v.partAt? k.route with
  | none => rfl
  | some x =>
    rw [hx] at hread
    exact hread

section Layer

variable {f : Format} {v : Value} {t : Section} {items : List Value} {m : Members}
  {text other : String} {s a b : Settings}

theorem withLayer_table (hv : f.value? text = some v)
    (harray : v.partAt? t.route = some (.array items)) (hm : m.Perm (t.names.zip items))
    (hw : f.value? other = some (v.replaceAt t.route (.object m)))
    (ha : s.withLayer f text = .ok a) : ∃ b, s.withLayer f other = .ok b := by
  obtain ⟨hsome, hjoined⟩ := (withLayer_under hv).mp ha
  obtain ⟨own, hown⟩ := Option.isSome_iff_exists.mp hsome
  have hkeys := partAt?_table harray hm
  have hown' := (ofValue?_sectioned.mp hown).1.table harray hm
  have hjoined' := (ofValue?_sectioned.mp hjoined).1.table harray hm
  refine ⟨_, (withLayer_under hw).mpr ⟨?_, ofValue?_of_same hkeys hjoined' hjoined _⟩⟩
  exact Option.isSome_of_eq_some (ofValue?_of_same hkeys hown' hown _)

/-- Below the section in order every key is in order; beside it, the same are as with the table. -/
theorem inOrder_table (harray : v.partAt? t.route = some (.array items)) (k : Key) :
    (t.route <+: k.route → v.inOrder k.route = true) ∧
      (¬ t.route <+: k.route → ∀ m,
        (v.replaceAt t.route (.object m)).inOrder k.route = v.inOrder k.route) := by
  constructor
  · rintro ⟨ρ, hρ⟩
    rw [← hρ, Value.inOrder_append, harray]
    cases ρ with
    | nil => exact absurd (List.append_nil t.route ▸ hρ ▸ List.prefix_rfl) (k.not_prefix t)
    | cons step ρ => exact Bool.or_true _
  · intro hp m
    exact Value.inOrder_replaceAt (t.agree k.home k.name) hp v _

/-- A setting is the same under both, unless it is the table alone that lets it through. -/
theorem under_table_iff (harray : v.partAt? t.route = some (.array items)) (m : Members) (k : Key) :
    k.get (s.under (v.replaceAt t.route (.object m))) = k.get (s.under v) ↔
      (t.route <+: k.route → (v.replaceAt t.route (.object m)).inOrder k.route = false →
        k.get s = k.get .default) := by
  rw [get_under, get_under]
  by_cases hbelow : t.route <+: k.route
  · rw [(inOrder_table harray k).1 hbelow, if_pos rfl, forall_prop_of_true hbelow]
    cases (v.replaceAt t.route (.object m)).inOrder k.route <;> simp
  · rw [(inOrder_table harray k).2 hbelow]
    exact iff_of_true rfl fun hp => absurd hp hbelow

theorem withLayer_table_eq_iff (hv : f.value? text = some v)
    (harray : v.partAt? t.route = some (.array items)) (hm : m.Perm (t.names.zip items))
    (hw : f.value? other = some (v.replaceAt t.route (.object m)))
    (ha : s.withLayer f text = .ok a) (hb : s.withLayer f other = .ok b) :
    b = a ↔ ∀ k : Key, t.route <+: k.route → v.partAt? k.route = none →
      (v.replaceAt t.route (.object m)).inOrder k.route = false → k.get s = k.get .default := by
  have hkeys := partAt?_table harray hm
  constructor
  · rintro rfl k hbelow hx
    have hsame := (withLayer_left hw hb ((hkeys k).trans hx)).symm.trans (withLayer_left hv ha hx)
    exact (under_table_iff harray m k).mp hsame hbelow
  · intro hdefault
    refine ext_get fun k => ?_
    cases hx : v.partAt? k.route with
    | none =>
      rw [withLayer_left hv ha hx, withLayer_left hw hb ((hkeys k).trans hx)]
      exact (under_table_iff harray m k).mpr fun hbelow => hdefault k hbelow hx
    | some x =>
      have hb' := withLayer_given hw hb ((hkeys k).trans hx)
      exact Option.some.inj (hb'.symm.trans (withLayer_given hv ha hx))

end Layer

/-- Where a section in order is taken, the same one as a table is, whose keys may be in any order,
and both give the same values. A key that is left out falls back to its default where a record
around it is in order, and keeps its value elsewhere. So the settings are the same exactly when each
key below the section that is left out, and has no other record in order around it, had its default
value. -/
theorem section_spelling (t : Section) {content other format : String} {f : Format} {v w : Value}
    {items : List Value} {m : Members} (hlayer : layerOf? content format = some (f, v))
    (harray : v.partAt? t.route = some (.array items)) (hm : m.Perm (t.names.zip items))
    (htable : w = v.replaceAt t.route (.object m)) (hother : layerOf? other format = some (f, w))
    {l r : Loading} (h : l.layerText content format = .ok r) :
    ∃ r', l.layerText other format = .ok r' ∧
      (∀ (k : Key) (x : Value), v.partAt? k.route = some x →
        k.kind.ofValue? f x = some (k.get r.settings) ∧
        k.kind.ofValue? f x = some (k.get r'.settings)) ∧
      (∀ k : Key, v.partAt? k.route = none →
        k.get r.settings = (if v.inOrder k.route then k.get .default else k.get l.settings) ∧
        k.get r'.settings = if w.inOrder k.route then k.get .default else k.get l.settings) ∧
      (r' = r ↔ ∀ k : Key, t.route <+: k.route → v.partAt? k.route = none →
        w.inOrder k.route = false → k.get l.settings = k.get .default) := by
  subst htable
  obtain ⟨f', v', a, hlayer', ha, rfl⟩ := Loading.layerText_eq_ok.mp h
  cases Option.some.inj (hlayer.symm.trans hlayer')
  have hv := (layerOf?_eq_some_iff.mp hlayer).2
  have hw := (layerOf?_eq_some_iff.mp hother).2
  obtain ⟨b, hb⟩ := withLayer_table hv harray hm hw ha
  have hkeys := partAt?_table harray hm
  refine ⟨{ l with settings := b }, Loading.layerText_eq_ok.mpr ⟨f, _, b, hother, hb, rfl⟩,
    fun k x hx => ?_, fun k hx => ?_, ?_⟩
  · exact ⟨withLayer_given hv ha hx, withLayer_given hw hb ((hkeys k).trans hx)⟩
  · rw [← get_under, ← get_under]
    exact ⟨withLayer_left hv ha hx, withLayer_left hw hb ((hkeys k).trans hx)⟩
  · rw [← withLayer_table_eq_iff hv harray hm hw ha hb]
    exact ⟨congrArg Loading.settings, fun heq => by rw [heq]⟩

/-- A service without more, in order and as a table, over the settings for development. -/
theorem telemetry_both_ways :
    let inOrder := "\x7b\"telemetry\":[\"users\",\x7b\x7d]\x7d"
    let asTable := "\x7b\"telemetry\":\x7b\"logging\":\x7b\x7d,\"service_name\":\"users\"\x7d\x7d"
    let l : Loading := ⟨.development, none, ⟨[]⟩⟩
    ∃ r r', l.layerText inOrder "json" = .ok r ∧ l.layerText asTable "json" = .ok r' ∧
      Key.service.get r.settings = .text "users" ∧ Key.service.get r'.settings = .text "users" ∧
      Key.logLevel.get r.settings = .text "info" ∧ Key.logLevel.get r'.settings = .text "debug" ∧
      r' ≠ r := by
  intro inOrder asTable l
  have hlayer : layerOf? "\x7b\"telemetry\":[\"users\",\x7b\x7d]\x7d" "json" =
      some (.json, .object [("telemetry", .array [.string "users", .object []])]) :=
    layerOf?_eq_some_iff.mpr ⟨by decide +kernel, by cbv⟩
  have hother : layerOf?
      "\x7b\"telemetry\":\x7b\"logging\":\x7b\x7d,\"service_name\":\"users\"\x7d\x7d" "json" =
        some (.json, .object [("telemetry",
          .object [("logging", .object []), ("service_name", .string "users")])]) :=
    layerOf?_eq_some_iff.mpr ⟨by decide +kernel, by cbv⟩
  have hok : (l.layerText inOrder "json").toOption.isSome := by decide +kernel
  obtain ⟨r, hr⟩ : ∃ r, l.layerText inOrder "json" = .ok r := by
    cases h : l.layerText inOrder "json" with
    | ok r => exact ⟨r, rfl⟩
    | error err =>
      rw [h] at hok
      cases hok
  obtain ⟨r', hr', hgiven, hleft, hsame⟩ :=
    section_spelling .telemetry hlayer rfl (.swap _ _ _) rfl hother hr
  have hservice := hgiven .service (.string "users") rfl
  have hlevel := hleft .logLevel rfl
  refine ⟨r, r', hr, hr', (Option.some.inj hservice.1).symm, (Option.some.inj hservice.2).symm,
    hlevel.1, hlevel.2, fun heq => ?_⟩
  exact absurd (hsame.mp heq .logLevel (by decide) rfl rfl) (by decide)

/-- A section of which one key is written in order loses what the settings for production have for
the others; a table keeps it. -/
theorem array_drops_preset :
    let l : Loading := ⟨.production, none, ⟨[]⟩⟩
    let after (text : String) : Option Settings :=
      (l.layerText text "json").toOption.map (·.settings)
    after "\x7b\"validation\":[true]\x7d" = some .default ∧
      after "\x7b\"validation\":\x7b\"validate_requests\":true\x7d\x7d" = some .production ∧
      default ≠ production := by
  decide +kernel

end Covenant.Settings
