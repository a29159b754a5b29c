import Covenant.Proofs.Reachability
import Covenant.Proofs.Tables
import Mathlib.Logic.Relation

namespace Covenant

namespace Segment

/-- The text of a segment where a parameter has what is captured under its name. -/
def filled? (c : Captures) : Segment → Option String
  | .literal text => some text
  | .parameter name => c.lookup name

end Segment

namespace Template

/-- A slash is added in front of a text, behind it, or beside another slash. -/
inductive SlashAdded : List Char → List Char → Prop
  | front (cs : List Char) : SlashAdded cs ('/' :: cs)
  | back (cs : List Char) : SlashAdded cs (cs ++ ['/'])
  | beside (before after : List Char) :
      SlashAdded (before ++ '/' :: after) (before ++ '/' :: '/' :: after)

/-- The texts differ in leading, trailing or repeated slashes only. -/
def SlashesApart (a b : String) : Prop := Relation.EqvGen SlashAdded a.toList b.toList

theorem pieces_ofList (cs : List Char) :
    pieces (String.ofList cs) = (Text.splitAt '/' cs).filter (!·.isEmpty) := by
  rw [pieces, String.toList_ofList]

theorem pieces_append_cons (before after : List Char) :
    pieces (String.ofList (before ++ '/' :: after)) =
      pieces (String.ofList before) ++ pieces (String.ofList after) := by
  simp only [pieces_ofList, Text.splitAt_append_cons, List.filter_append]

theorem pieces_cons (cs : List Char) :
    pieces (String.ofList ('/' :: cs)) = pieces (String.ofList cs) := pieces_append_cons [] cs

theorem pieces_of_slashAdded {a b : List Char} (h : SlashAdded a b) :
    pieces (String.ofList a) = pieces (String.ofList b) := by
  cases h with
  | front => exact (pieces_cons a).symm
  | back => exact ((pieces_append_cons a []).trans (List.append_nil _)).symm
  | beside before after => rw [pieces_append_cons, pieces_append_cons, pieces_cons]

theorem pieces_of_apart {a b : List Char} (h : Relation.EqvGen SlashAdded a b) :
    pieces (String.ofList a) = pieces (String.ofList b) := by
  induction h with
  | rel _ _ h => exact pieces_of_slashAdded h
  | refl _ => rfl
  | symm _ _ _ ih => exact ih.symm
  | trans _ _ _ _ _ hab hbc => exact hab.trans hbc

theorem slashAdded_behind (part : List Char) {a b : List Char} (h : SlashAdded a b) :
    SlashAdded (part ++ '/' :: a) (part ++ '/' :: b) := by
  cases h with
  | front => exact .beside part a
  | back => simpa using SlashAdded.back (part ++ '/' :: a)
  | beside before after => simpa using SlashAdded.beside (part ++ '/' :: before) after

theorem apart_behind (part : List Char) {a b : List Char} (h : Relation.EqvGen SlashAdded a b) :
    Relation.EqvGen SlashAdded (part ++ '/' :: a) (part ++ '/' :: b) := by
  induction h with
  | rel a b h => exact .rel _ _ (slashAdded_behind part h)
  | refl a => exact .refl _
  | symm a b _ ih => exact .symm _ _ ih
  | trans a b c _ _ hab hbc => exact .trans _ _ _ hab hbc

/-- A text and its pieces, with a slash behind each. -/
theorem apart_pieces (cs : List Char) :
    Relation.EqvGen SlashAdded cs ((pieces (String.ofList cs)).flatMap (· ++ ['/'])) := by
  -- the induction is on the length, for the rest behind the first slash has pieces of its own
  induction hn : cs.length using Nat.strongRecOn generalizing cs with
  | ind n ih =>
    by_cases hslash : '/' ∈ cs
    · obtain ⟨part, rest, rfl, hpart⟩ := List.eq_append_cons_of_mem hslash
      have hrest := ih rest.length (by simp at hn; omega) rest rfl
      rw [pieces_append_cons, pieces_ofList part, Text.splitAt_of_notMem hpart]
      cases part with
      | nil => exact .trans _ _ _ (.symm _ _ (.rel _ _ (.front rest))) hrest
      | cons c part => simpa using apart_behind (c :: part) hrest
    · rw [pieces_ofList, Text.splitAt_of_notMem hslash]
      cases cs with
      | nil => exact .refl _
      | cons c cs => simpa using Relation.EqvGen.rel _ _ (SlashAdded.back (c :: cs))

/-- Texts differ in such slashes just if they have the same pieces. -/
theorem slashesApart_iff {a b : String} : SlashesApart a b ↔ pieces a = pieces b := by
  constructor
  · intro h
    have hpieces := pieces_of_apart h
    rwa [String.ofList_toList, String.ofList_toList] at hpieces
  · intro h
    have ha := apart_pieces a.toList
    have hb := apart_pieces b.toList
    rw [String.ofList_toList] at ha hb
    rw [← h] at hb
    exact .trans _ _ _ ha (.symm _ _ hb)

/-- A piece of a template takes a piece of a path. -/
def Fits (t p : List Char) : Prop := (∃ name, t = braced name) ∨ t = p

/-- A template and a path, piece beside piece. -/
def rows (template path : String) : List (List Char × List Char) :=
  (pieces template).zip (pieces path)

/-- A piece of the path that stands beside a parameter, under its name. -/
def captured? (row : List Char × List Char) : Option (String × String) :=
  (Segment.ofPiece row.1).name?.map (·, String.ofList row.2)

variable {template path name text : String} {c : Captures}

theorem captured_eq_some {row : List Char × List Char} :
    captured? row = some (name, text) ↔ row = (braced name, text.toList) := by
  obtain ⟨t, p⟩ := row
  rw [captured?, Option.map_eq_some_iff, Prod.mk.injEq, ← name_ofPiece]
  constructor
  · rintro ⟨n, hn, he⟩
    cases he
    exact ⟨hn, String.toList_ofList.symm⟩
  · rintro ⟨hn, rfl⟩
    exact ⟨name, hn, by rw [String.ofList_toList]⟩

theorem fits_iff {t p : List Char} :
    Fits t p ↔ ∀ text ∈ (Segment.ofPiece t).literal?, text = String.ofList p := by
  unfold Fits braced
  simp only [← Segment.ofPiece_eq_parameter]
  cases h : Segment.ofPiece t with
  | parameter name => simp [Segment.literal?]
  | literal text =>
    have hall : (∀ t ∈ some text, t = String.ofList p) ↔ text = String.ofList p := by simp
    rw [Segment.eq_toList_of_ofPiece h, Segment.literal?, hall, ← String.toList_inj]
    simp

theorem admits_iff : Admits (shape template) ((pieces path).map String.ofList) ↔
    List.Forall₂ Fits (pieces template) (pieces path) := by
  rw [Admits, shape, segments, List.forall₂_map_left_iff, List.forall₂_map_left_iff,
    List.forall₂_map_right_iff]
  simp only [← fits_iff]

theorem capture_of_fits {ts ps : List (List Char)} (h : List.Forall₂ Fits ts ps)
    (found : Captures) :
    capture (ts.map Segment.ofPiece) (ps.map String.ofList) found =
      some (((ts.zip ps).filterMap captured?).foldl
        (fun table (k, v) => Entries.put k v table) found) := by
  induction h generalizing found with
  | nil => rfl
  | @cons t p ts ps hfits _ ih =>
    rw [fits_iff] at hfits
    cases ht : Segment.ofPiece t with
    | literal text => simp_all [capture, captured?, Segment.name?, Segment.literal?]
    | parameter name => simp_all [capture, captured?, Segment.name?]

theorem captures_eq_some : captures? template path = some c ↔
    List.Forall₂ Fits (pieces template) (pieces path) ∧
      c = Entries.ofList ((rows template path).filterMap captured?) := by
  constructor
  · intro h
    have hfits := admits_iff.mp (captures_isSome.mp (Option.isSome_iff_exists.mpr ⟨c, h⟩))
    rw [captures?, segments, capture_of_fits hfits, Option.some.injEq] at h
    exact ⟨hfits, h.symm⟩
  · rintro ⟨hfits, rfl⟩
    exact capture_of_fits hfits []

theorem mem_captured {l : List (List Char × List Char)} :
    (name, text) ∈ l.filterMap captured? ↔ (braced name, text.toList) ∈ l := by
  simp [List.mem_filterMap, captured_eq_some]

theorem keys_captured (l : List (List Char × List Char)) :
    (l.filterMap captured?).map (·.1) =
      ((l.map (·.1)).map Segment.ofPiece).filterMap Segment.name? := by
  rw [List.map_filterMap, List.map_map, List.filterMap_map]
  refine List.filterMap_congr fun row _ => ?_
  rw [captured?, Option.map_map]
  exact congrFun Option.map_id _

theorem mem_keys_captured {l : List (List Char × List Char)} :
    name ∈ (l.filterMap captured?).map (·.1) ↔ braced name ∈ l.map (·.1) := by
  constructor
  · intro h
    obtain ⟨⟨n, text⟩, he, rfl⟩ := List.mem_map.mp h
    exact List.mem_map_of_mem (f := (·.1)) (mem_captured.mp he)
  · intro h
    obtain ⟨⟨t, p⟩, hrow, rfl⟩ := List.mem_map.mp h
    have he : (name, String.ofList p) ∈ l.filterMap captured? :=
      mem_captured.mpr (by rwa [String.toList_ofList])
    exact List.mem_map_of_mem (f := (·.1)) he

theorem fst_rows (h : List.Forall₂ Fits (pieces template) (pieces path)) :
    (rows template path).map (·.1) = pieces template :=
  List.map_fst_zip (Nat.le_of_eq h.length_eq)

theorem snd_rows (h : List.Forall₂ Fits (pieces template) (pieces path)) :
    (rows template path).map (·.2) = pieces path :=
  List.map_snd_zip (Nat.le_of_eq h.length_eq.symm)

theorem keys_rows (h : List.Forall₂ Fits (pieces template) (pieces path)) :
    ((rows template path).filterMap captured?).map (·.1) = parameters template := by
  rw [keys_captured, fst_rows h]
  rfl

/-- Under a name stands the piece beside its last place. -/
theorem lookup_captured {l : List (List Char × List Char)} :
    (Entries.ofList (l.filterMap captured?)).lookup name = some text ↔
      ∃ before after, l = before ++ (braced name, text.toList) :: after ∧
        braced name ∉ after.map (·.1) := by
  rw [Entries.lookup_ofList_eq_some]
  constructor
  · rintro ⟨before, after, heq, hafter⟩
    obtain ⟨first, last, rfl, -, hlast⟩ := List.filterMap_eq_append_iff.mp heq
    obtain ⟨skipped, row, rest, rfl, -, hrow, rfl⟩ := List.filterMap_eq_cons_iff.mp hlast
    rw [captured_eq_some] at hrow
    refine ⟨first ++ skipped, rest, by rw [hrow, List.append_assoc], ?_⟩
    exact mt mem_keys_captured.mpr hafter
  · rintro ⟨before, after, rfl, hafter⟩
    refine ⟨before.filterMap captured?, after.filterMap captured?, ?_,
      mt mem_keys_captured.mp hafter⟩
    rw [List.filterMap_append, List.filterMap_cons_some (captured_eq_some.mpr rfl)]

/-- A template with what is captured in the places of its parameters. -/
def substitute (c : Captures) (template : String) : List (Option String) :=
  (segments template).map (Segment.filled? c)

/-- Where the template has one name, the path has one text. -/
def Agree (template path : String) : Prop :=
  ∀ name p q, (braced name, p) ∈ rows template path → (braced name, q) ∈ rows template path → p = q

theorem filled_eq_some {t p : List Char} (h : Fits t p) :
    (Segment.ofPiece t).filled? c = some (String.ofList p) ↔
      ∀ name, t = braced name → c.lookup name = some (String.ofList p) := by
  simp only [← name_ofPiece]
  cases ht : Segment.ofPiece t with
  | parameter name => simp [Segment.filled?, Segment.name?]
  | literal text =>
    rw [fits_iff, ht] at h
    simp [Segment.filled?, Segment.name?, h text rfl]

theorem substitute_eq_iff_lookup (h : List.Forall₂ Fits (pieces template) (pieces path)) :
    substitute c template = (pieces path).map (some ∘ String.ofList) ↔
      ∀ name p, (braced name, p) ∈ rows template path → c.lookup name = some (String.ofList p) := by
  rw [substitute, segments, ← List.forall₂_eq_eq_eq, List.forall₂_map_left_iff,
    List.forall₂_map_left_iff, List.forall₂_map_right_iff, List.forall₂_iff_zip]
  constructor
  · rintro ⟨-, hrows⟩ name p hrow
    exact (filled_eq_some (List.forall₂_zip h hrow)).mp (hrows hrow) name rfl
  · intro hlookup
    refine ⟨h.length_eq, fun {t p} hrow => (filled_eq_some (List.forall₂_zip h hrow)).mpr ?_⟩
    rintro name rfl
    exact hlookup name p hrow

theorem substitute_eq_iff (h : captures? template path = some c) :
    substitute c template = (pieces path).map (some ∘ String.ofList) ↔ Agree template path := by
  obtain ⟨hfits, rfl⟩ := captures_eq_some.mp h
  rw [substitute_eq_iff_lookup hfits]
  constructor
  · intro hlookup name p q hp hq
    have hpq := (hlookup name p hp).symm.trans (hlookup name q hq)
    exact String.ofList_injective (Option.some.inj hpq)
  · intro hagree name p hp
    have hkey := mem_keys_captured.mpr (List.mem_map_of_mem (f := (·.1)) hp)
    rw [← List.mem_eraseDups, ← Entries.keys_ofList, ← Entries.lookup_isSome] at hkey
    obtain ⟨text, htext⟩ := Option.isSome_iff_exists.mp hkey
    obtain ⟨before, after, hrows, -⟩ := lookup_captured.mp htext
    have hrow : (braced name, text.toList) ∈ rows template path := by simp [hrows]
    rw [htext, hagree name p _ hp hrow, String.ofList_toList]

theorem agree_of_nodup (h : captures? template path = some c) (hn : (parameters template).Nodup) :
    Agree template path := by
  rw [← keys_rows (captures_eq_some.mp h).1] at hn
  intro name p q hp hq
  rw [← String.toList_ofList (l := p), ← mem_captured, ← Entries.lookup_eq_some_iff hn] at hp
  rw [← String.toList_ofList (l := q), ← mem_captured, ← Entries.lookup_eq_some_iff hn, hp] at hq
  exact String.ofList_injective (Option.some.inj hq)

theorem captures_congr {other : String} (h : pieces path = pieces other) :
    captures? template path = captures? template other := by
  rw [captures?, captures?, h]

end Template

theorem Registry.resolve_congr (r : Registry) (method : Method) {path other : String}
    (h : Template.pieces path = Template.pieces other) :
    r.resolve? method path = r.resolve? method other := by
  have hcaptures : ∀ o : Operation, o.captures? path = o.captures? other :=
    fun o => Template.captures_congr h
  simp only [resolve?, candidates, hcaptures]

namespace Template

/-- A template matches a path just if they have as many pieces and each piece of the template is in
braces or stands in the path too. What is captured then has the names of the parameters, each with
the piece in its last place; where no name comes twice, it fills the template in with the path.
Leading, trailing and repeated slashes change nothing. -/
theorem path_matching (template path : String) :
    ((captures? template path).isSome = true ↔ List.Forall₂
      (fun t p => (∃ name : String, t = '\x7b' :: name.toList ++ ['\x7d']) ∨ t = p)
      (pieces template) (pieces path)) ∧
    (∀ name, name ∈ parameters template ↔ braced name ∈ pieces template) ∧
    (∀ c, captures? template path = some c →
      c.map (·.1) = (parameters template).eraseDups ∧
      (∀ name text, c.lookup name = some text ↔
        ∃ before after, (pieces template).zip (pieces path) =
            before ++ (braced name, text.toList) :: after ∧
          braced name ∉ after.map (·.1)) ∧
      (∀ e ∈ c, e.2 ≠ "" ∧ '/' ∉ e.2.toList) ∧
      ((parameters template).Nodup →
        substitute c template = (pieces path).map (some ∘ String.ofList))) ∧
    ∀ other, SlashesApart path other →
      captures? template path = captures? template other ∧
      ∀ (r : Registry) (method : Method), r.resolve? method path = r.resolve? method other := by
  refine ⟨captures_isSome.trans admits_iff, fun _ => mem_parameters, ?_, ?_⟩
  · intro c h
    obtain ⟨hfits, hc⟩ := captures_eq_some.mp h
    refine ⟨?_, ?_, ?_, fun hn => (substitute_eq_iff h).mpr (agree_of_nodup h hn)⟩
    · rw [hc, Entries.keys_ofList, keys_rows hfits]
    · intro name text
      rw [hc]
      exact lookup_captured
    · intro e he
      rw [hc] at he
      have hrow := mem_captured.mp (Entries.mem_of_mem_ofList he)
      obtain ⟨hne, hslash⟩ := mem_pieces (List.of_mem_zip hrow).2
      exact ⟨by simpa using hne, hslash⟩
  · intro other h
    have hpieces := slashesApart_iff.mp h
    exact ⟨captures_congr hpieces, fun r method => r.resolve_congr method hpieces⟩

/-- Braces inside a name, a brace that stands alone, and a name that comes twice. -/
theorem odd_pieces_matched :
    let template := "/\x7b\x7d/\x7ba\x7d\x7bb\x7d/\x7b/\x7bx\x7d/\x7bx\x7d"
    let path := "//p/q/\x7b/r//s/"
    let c := [("", "p"), ("a\x7d\x7bb", "q"), ("x", "s")]
    captures? template path = some c ∧ c.map (·.1) = (parameters template).eraseDups ∧
      captures? template "/p/q/\x7b/r/s" = some c := by
  intro template path c
  have hc : captures? template path = some c := by decide +kernel
  have hapart : SlashesApart path "/p/q/\x7b/r/s" := slashesApart_iff.mpr (by decide +kernel)
  obtain ⟨-, -, hcaptures, hslashes⟩ := path_matching template path
  exact ⟨hc, (hcaptures c hc).1, (hslashes _ hapart).1 ▸ hc⟩

end Template

end Covenant
