import Covenant.Proofs.Fixpoint
import Covenant.Proofs.Refusal

namespace Covenant

variable {s : RecordSchema} {sources others : List Instance} {f : String} {d : Datum}

/-- The last of the sources that sets the field sets it to the datum. -/
def LastSets (sources : List Instance) (f : String) (d : Datum) : Prop :=
  ∃ before q after, sources = before ++ q :: after ∧ q.get? f = some d ∧
    ∀ p ∈ after, p.isSet f = false

/-- Of two of the sources no field of the schema is set by both. -/
def SetApart (s : RecordSchema) (sources : List Instance) : Prop :=
  sources.Pairwise fun p q => ∀ f ∈ s.fieldNames, p.isSet f = true → q.isSet f = false

theorem Instance.isSet_eq_false {r : Instance} : r.isSet f = false ↔ r.get? f = none := by
  rw [Instance.isSet, Option.isSome_eq_false_iff, Option.isNone_iff_eq_none]

theorem overlayValues_append_list (sources more : List Instance) (f : String) :
    overlayValues (sources ++ more) f = (overlayValues more f).or (overlayValues sources f) := by
  induction more using List.reverseRecOn with
  | nil => rw [List.append_nil]; rfl
  | append_singleton more r ih =>
    rw [← List.append_assoc, overlayValues_append, overlayValues_append, ih, Option.or_assoc]

theorem overlayValues_eq_none :
    overlayValues sources f = none ↔ ∀ q ∈ sources, q.isSet f = false := by
  induction sources using List.reverseRecOn with
  | nil => simp [overlayValues]
  | append_singleton sources q ih =>
    rw [overlayValues_append, Option.or_eq_none_iff, ih, List.forall_mem_append,
      List.forall_mem_singleton, Instance.isSet_eq_false, and_comm]

theorem overlayValues_cons (q : Instance) (after : List Instance) (f : String) :
    overlayValues (q :: after) f = (overlayValues after f).or (q.get? f) := by
  rw [← List.singleton_append, overlayValues_append_list]
  simp [overlayValues]

theorem overlayValues_eq_some : overlayValues sources f = some d ↔ LastSets sources f d := by
  constructor
  · intro h
    induction sources using List.reverseRecOn with
    | nil => cases h
    | append_singleton sources q ih =>
      rw [overlayValues_append, Option.or_eq_some_iff] at h
      rcases h with hq | ⟨hq, h⟩
      · exact ⟨sources, q, [], rfl, hq, by simp⟩
      · obtain ⟨before, p, after, rfl, hp, hafter⟩ := ih h
        refine ⟨before, p, after ++ [q], by simp, hp, ?_⟩
        rw [List.forall_mem_append, List.forall_mem_singleton, Instance.isSet_eq_false]
        exact ⟨hafter, hq⟩
  · rintro ⟨before, q, after, rfl, hq, hafter⟩
    rw [overlayValues_append_list, overlayValues_cons, overlayValues_eq_none.mpr hafter, hq]
    rfl

theorem overlayValues_apart (h : sources.Pairwise fun p q => p.isSet f = true → q.isSet f = false) :
    overlayValues sources f = some d ↔ ∃ q ∈ sources, q.get? f = some d := by
  refine ⟨exists_of_overlayValues, ?_⟩
  rintro ⟨q, hq, hd⟩
  obtain ⟨before, after, rfl⟩ := List.append_of_mem hq
  have hafter := (List.pairwise_cons.mp (List.pairwise_append.mp h).2.1).1
  have hset : q.isSet f = true := by rw [Instance.isSet, hd]; rfl
  exact overlayValues_eq_some.mpr ⟨before, q, after, rfl, hd, fun p hp => hafter p hp hset⟩

theorem overlayValues_perm (hperm : sources.Perm others)
    (h : sources.Pairwise fun p q => p.isSet f = true → q.isSet f = false) :
    overlayValues others f = overlayValues sources f := by
  have hsymm : ∀ {p q : Instance}, (p.isSet f = true → q.isSet f = false) →
      q.isSet f = true → p.isSet f = false := by
    intro p q hpq hq
    by_contra hp
    rw [Bool.not_eq_false] at hp
    rw [hpq hp] at hq
    cases hq
  have hothers := (hperm.pairwise_iff hsymm).mp h
  refine Option.ext fun d => ?_
  rw [overlayValues_apart hothers, overlayValues_apart h]
  simp only [hperm.mem_iff]

theorem overlayValues_congr
    (h : List.Forall₂ (fun p q : Instance => p.get? f = q.get? f) sources others) :
    overlayValues sources f = overlayValues others f := by
  induction h with
  | nil => rfl
  | cons hpq _ ih => rw [overlayValues_cons, overlayValues_cons, ih, hpq]

/-- What iterating over an instance yields: the fields of its schema that are set. -/
def Instance.settings (r : Instance) : List (String × Datum) := (collect r.schema r.get?).values

/-- The table in which the settings of the sources are entered, one source after another. -/
def overlayTable (sources : List Instance) : List (String × Datum) :=
  sources.foldl (fun table r => r.settings.foldl (fun t e => Entries.put e.1 e.2 t) table) []

theorem Entries.lookup_enter {κ β : Type} [BEq κ] [LawfulBEq κ] {pairs : List (κ × β)}
    (hn : (pairs.map (·.1)).Nodup) (table : List (κ × β)) (k : κ) :
    (pairs.foldl (fun t e => put e.1 e.2 t) table).lookup k =
      (pairs.lookup k).or (table.lookup k) := by
  induction pairs generalizing table with
  | nil => rfl
  | cons e rest ih =>
    obtain ⟨key, v⟩ := e
    obtain ⟨hnew, hn⟩ := List.nodup_cons.mp hn
    rw [List.foldl_cons, ih hn, lookup_put, lookup_cons_ite]
    by_cases hk : k = key
    · subst hk
      simp [lookup_eq_none hnew]
    · simp [hk]

theorem Instance.InOrder.lookup_settings {r : Instance} (h : r.InOrder) (f : String) :
    r.settings.lookup f = r.get? f := by
  rw [settings, ← h, get?]

theorem Instance.settings_nodup {r : Instance} (hn : r.schema.fieldNames.Nodup) :
    (r.settings.map (·.1)).Nodup := collect_setsOnce ⟨r.schema, hn⟩ r.get?

theorem lookup_overlayTable
    (h : ∀ q ∈ sources, q.schema.fieldNames.Nodup ∧ q.InOrder) (f : String) :
    (overlayTable sources).lookup f = overlayValues sources f := by
  induction sources using List.reverseRecOn with
  | nil => rfl
  | append_singleton sources q ih =>
    rw [List.forall_mem_append, List.forall_mem_singleton] at h
    obtain ⟨hsources, hn, hq⟩ := h
    have htable : overlayTable (sources ++ [q]) =
        q.settings.foldl (fun t e => Entries.put e.1 e.2 t) (overlayTable sources) := by
      simp [overlayTable]
    rw [htable, Entries.lookup_enter (Instance.settings_nodup hn), hq.lookup_settings, ih hsources,
      overlayValues_append]

theorem combine_congr (h : ∀ f ∈ s.fieldNames, overlayValues sources f = overlayValues others f) :
    combine s sources = combine s others :=
  congrArg Instance.finish (Instance.collect_congr h)

theorem combine_of_first
    (h : FirstOf (fun f => (overlayValues sources f).isNone = true) s.fieldNames f) :
    combine s sources = .error (.missingField s.name f) := by
  obtain ⟨rest, hrest⟩ := h.filter
  rw [combine, Instance.finish, Instance.missing_collect, hrest]
  rfl

theorem exists_combine :
    (∃ r, combine s sources = .ok r) ↔ ∀ f ∈ s.fieldNames, ∃ q ∈ sources, q.isSet f = true := by
  simp only [combine_eq_ok, exists_and_left, exists_eq', and_true, Option.isSome_iff_ne_none, ne_eq,
    overlayValues_eq_none, not_forall, Bool.not_eq_false, exists_prop]

theorem combine_values {r : Instance} (h : combine s sources = .ok r) :
    r.schema = s ∧ r.values.map (·.1) = s.fieldNames ∧
      ∀ f ∈ s.fieldNames, ∃ d, r.get? f = some d ∧ LastSets sources f d := by
  obtain ⟨hset, rfl⟩ := combine_eq_ok.mp h
  refine ⟨rfl, Instance.keys_collect hset, ?_⟩
  intro f hf
  obtain ⟨d, hd⟩ := Option.isSome_iff_exists.mp (hset f hf)
  exact ⟨d, by rw [Instance.get_collect_of_mem _ hf, hd], overlayValues_eq_some.mp hd⟩

theorem combine_eq_error {err : ContractError} :
    combine s sources = .error err ↔
      ∃ f, FirstOf (fun f => ∀ q ∈ sources, q.isSet f = false) s.fieldNames f ∧
        err = .missingField s.name f := by
  have hunset : (fun f => ∀ q ∈ sources, q.isSet f = false) =
      fun f => (overlayValues sources f).isNone = true := by
    funext f
    rw [Option.isNone_iff_eq_none, overlayValues_eq_none]
  rw [hunset]
  constructor
  · intro h
    rcases FirstOf.none_or_exists (fun f => (overlayValues sources f).isNone = true) s.fieldNames
      with hall | ⟨f, hf⟩
    · obtain ⟨f, hf, hnone, -⟩ := combine_error h
      exact absurd (Option.isNone_iff_eq_none.mpr hnone) (hall f hf)
    · rw [combine_of_first hf, Except.error.injEq] at h
      exact ⟨f, hf, h.symm⟩
  · rintro ⟨f, hf, rfl⟩
    exact combine_of_first hf

/-- A combination succeeds just if each declared field is set in some source, and then has each of
them as the last of those sources has it; otherwise the first that none sets is missing. Sources
that set no declared field twice may come in any order, and what the sources hold beside the
declared fields has no effect. Where the sources were made by setting fields, all this is what a
table makes of them in which their settings are entered one after another. -/
theorem combination_takes_last (s : RecordSchema) (sources : List Instance) :
    ((∃ r, combine s sources = .ok r) ↔
      ∀ f ∈ s.fieldNames, ∃ q ∈ sources, q.isSet f = true) ∧
    (∀ r, combine s sources = .ok r → r.schema = s ∧ r.values.map (·.1) = s.fieldNames ∧
      ∀ f ∈ s.fieldNames, ∃ d, r.get? f = some d ∧ LastSets sources f d) ∧
    (∀ err, combine s sources = .error err ↔
      ∃ f, FirstOf (fun f => ∀ q ∈ sources, q.isSet f = false) s.fieldNames f ∧
        err = .missingField s.name f) ∧
    (∀ others, sources.Perm others → SetApart s sources →
      combine s others = combine s sources) ∧
    (∀ before q after, sources = before ++ q :: after →
      (∀ f ∈ s.fieldNames, q.isSet f = false) →
      combine s (before ++ after) = combine s sources) ∧
    (∀ others, List.Forall₂ (fun p q : Instance => ∀ f ∈ s.fieldNames, p.get? f = q.get? f)
        sources others → combine s others = combine s sources) ∧
    ((∀ q ∈ sources, q.schema.fieldNames.Nodup ∧ q.InOrder) →
      combine s sources = (Instance.collect s fun f => (overlayTable sources).lookup f).finish) := by
  refine ⟨exists_combine, fun _ => combine_values, fun _ => combine_eq_error, ?_, ?_, ?_, ?_⟩
  · intro others hperm hapart
    refine combine_congr fun f hf => overlayValues_perm hperm ?_
    exact hapart.imp fun hpq => hpq f hf
  · rintro before q after rfl hq
    refine combine_congr fun f hf => ?_
    rw [overlayValues_append_list, overlayValues_append_list, overlayValues_cons,
      Instance.isSet_eq_false.mp (hq f hf), Option.or_none]
  · intro others hsame
    refine combine_congr fun f hf => (overlayValues_congr ?_).symm
    exact hsame.imp fun _ _ hpq => hpq f hf
  · intro hmade
    exact congrArg Instance.finish
      (Instance.collect_congr fun f _ => (lookup_overlayTable hmade f).symm)

/-- The parts of an update in either order, with an instance among them that has no part in it. -/
theorem user_update_combined :
    let number : Instance := ⟨Sample.userId, [("id", .integer 7)]⟩
    let details : Instance := ⟨Sample.newUser, [("name", .text "Ada"), ("email", .text "ada@host")]⟩
    let failure : Instance := ⟨Sample.failure, [("code", .text "conflict")]⟩
    let user : Instance := ⟨Sample.changedUser,
      [("id", .integer 7), ("name", .text "Ada"), ("email", .text "ada@host")]⟩
    let sources := [number, failure, details]
    SetApart Sample.changedUser sources ∧
    (∀ q ∈ sources, q.schema.fieldNames.Nodup ∧ q.InOrder) ∧
    combine Sample.changedUser sources = .ok user ∧
    combine Sample.changedUser [details, failure, number] = .ok user ∧
    combine Sample.changedUser [number, details] = .ok user ∧
    combine Sample.changedUser [number, failure] =
      .error (.missingField "UpdateUserRequest" "name") := by
  intro number details failure user sources
  have hapart : SetApart Sample.changedUser sources := by
    unfold SetApart
    decide
  have hkeys : ∀ q ∈ sources, q.schema.fieldNames.Nodup ∧
      (q.values.map (·.1)).Sublist q.schema.fieldNames := by decide
  have hmade : ∀ q ∈ sources, q.schema.fieldNames.Nodup ∧ q.InOrder := fun q hq =>
    ⟨(hkeys q hq).1, Instance.inOrder_of_sublist ⟨q.schema, (hkeys q hq).1⟩ rfl (hkeys q hq).2⟩
  have hfailure : ∀ f ∈ Sample.changedUser.fieldNames, failure.isSet f = false := by decide
  obtain ⟨-, -, -, hperm, hdrop, -, htable⟩ := combination_takes_last Sample.changedUser sources
  have huser : combine Sample.changedUser sources = .ok user := (htable hmade).trans rfl
  refine ⟨hapart, hmade, huser, ?_, ?_, rfl⟩
  · exact (hperm _ (List.reverse_perm sources).symm hapart).trans huser
  · exact (hdrop [number] failure [details] rfl hfailure).trans huser

end Covenant
