import Covenant.Json.Parts
import Mathlib.Data.List.Nodup

namespace Covenant.Json

open Source

/-- What may stand for a character in the body of a string. -/
inductive Escaped (c : Char) : List Char → Prop
  | short {e : Char} (h : shortEscape? e = some c) : Escaped c ['\\', e]
  | code {a b : Char} (hcode : Text.hexNumber ['0', '0', a, b] = c.toNat) (hc : c.toNat < 0x20)
    (ha : Text.isHex a = true) (hb : Text.isHex b = true) : Escaped c ['\\', 'u', '0', '0', a, b]
  | plain (hquote : c ≠ '"') (hslash : c ≠ '\\') (hc : ¬c.toNat < 0x20) : Escaped c [c]

theorem isHex_hexDigit : ∀ d < 16, Text.isHex (hexDigit d) = true := by decide

theorem hexNumber_hexDigits :
    ∀ n < 0x20, Text.hexNumber ['0', '0', hexDigit (n / 16), hexDigit (n % 16)] = n := by decide

theorem escapeChar_escaped (c : Char) : Escaped c (escapeChar c) := by
  unfold escapeChar
  split_ifs with hquote hslash hn hr ht hb hf hc
  · subst hquote
    exact .short rfl
  · subst hslash
    exact .short rfl
  · subst hn
    exact .short rfl
  · subst hr
    exact .short rfl
  · subst ht
    exact .short rfl
  · subst hb
    exact .short rfl
  · subst hf
    exact .short rfl
  · exact .code (hexNumber_hexDigits _ hc) hc (isHex_hexDigit _ (by omega))
      (isHex_hexDigit _ (by omega))
  · exact .plain hquote hslash hc

theorem ne_u_of_shortEscape {e c : Char} (h : shortEscape? e = some c) : e ≠ 'u' := by
  rintro rfl
  cases h

theorem scanString_escaped {c : Char} {body : List Char} (h : Escaped c body) (rest : List Char) :
    scanString (body ++ rest) = (scanString rest).map fun x => (body ++ x.1, x.2) := by
  cases h with
  | short h => simp [scanString, ne_u_of_shortEscape h, h]
  | @code a b hcode hc ha hb =>
    have hzero : Text.isHex '0' = true := rfl
    simp [scanString, hzero, ha, hb]
  | plain hquote hslash hc => simp [scanString, hslash, hc]

theorem unescape_code {a b c d : Char} (rest : List Char)
    (h : Text.hexNumber [a, b, c, d] < 0xD800) :
    unescape? ('\\' :: 'u' :: a :: b :: c :: d :: rest) =
      (unescape? rest).map (Char.ofNat (Text.hexNumber [a, b, c, d]) :: ·) := by
  have hhigh : isHighSurrogate (Text.hexNumber [a, b, c, d]) = false := by
    simp [isHighSurrogate]
    omega
  have hlow : isLowSurrogate (Text.hexNumber [a, b, c, d]) = false := by
    simp [isLowSurrogate]
    omega
  -- only half a surrogate pair looks at what follows
  by_cases hrest : ∃ a' b' c' d' r, rest = '\\' :: 'u' :: a' :: b' :: c' :: d' :: r
  · obtain ⟨a', b', c', d', r, rfl⟩ := hrest
    rw [unescape?]
    simp [hhigh, hlow]
  · rw [unescape?]
    · simp [hhigh, hlow]
    · intro a' b' c' d' r hr
      exact hrest ⟨a', b', c', d', r, hr⟩

theorem unescape_escaped {c : Char} {body : List Char} (h : Escaped c body) (rest : List Char) :
    unescape? (body ++ rest) = (unescape? rest).map (c :: ·) := by
  cases h with
  | short h => simp [unescape?, ne_u_of_shortEscape h, h]
  | @code a b hcode hc ha hb =>
    rw [List.cons_append, List.cons_append, List.cons_append, List.cons_append, List.cons_append,
      List.cons_append, List.nil_append, unescape_code rest (by omega), hcode, Char.ofNat_toNat]
  | plain hquote hslash hc => simp [unescape?, hslash]

theorem scanString_escape (cs rest : List Char) :
    scanString (escape cs ++ '"' :: rest) = some (escape cs, rest) := by
  induction cs with
  | nil => rfl
  | cons c cs ih =>
    rw [escape, List.flatMap_cons, List.append_assoc, scanString_escaped (escapeChar_escaped c)]
    change (scanString (escape cs ++ _)).map _ = _
    rw [ih]
    rfl

theorem unescape_escape (cs : List Char) : unescape? (escape cs) = some cs := by
  induction cs with
  | nil => rfl
  | cons c cs ih =>
    rw [escape, List.flatMap_cons, unescape_escaped (escapeChar_escaped c)]
    change (unescape? (escape cs)).map _ = _
    rw [ih]
    rfl

theorem textOf_escape (s : String) : textOf? (escape s.toList) = some s := by
  rw [textOf?, unescape_escape, Option.map_some, String.ofList_toList]

/-- What stands behind a number and does not go on with it. -/
def EndsNumber (rest : List Char) : Prop :=
  ∀ c ∈ rest.head?, c.isDigit = false ∧ c ≠ '.' ∧ c ≠ 'e' ∧ c ≠ 'E'

theorem toDigits_head {n : Nat} (h : n ≠ 0) : ∃ c cs, Nat.toDigits 10 n = c :: cs ∧ c ≠ '0' := by
  induction n using Nat.strongRecOn with
  | ind n ih =>
    rw [Nat.toDigits_eq_if (by decide)]
    split
    · next hn =>
      have hdigit : ∀ d < 10, d ≠ 0 → Nat.digitChar d ≠ '0' := by decide
      exact ⟨_, [], rfl, hdigit n hn h⟩
    · obtain ⟨c, cs, hc, hne⟩ := ih (n / 10) (by omega) (by omega)
      exact ⟨c, cs ++ [Nat.digitChar (n % 10)], by rw [hc]; rfl, hne⟩

theorem isDigit_toDigits (n : Nat) : ∀ c ∈ Nat.toDigits 10 n, c.isDigit = true :=
  fun _ hc => Nat.isDigit_of_mem_toDigits (by decide) (by decide) hc

theorem scanDigits_append {ds rest : List Char} (hne : ds ≠ [])
    (hds : ∀ c ∈ ds, c.isDigit = true) (hrest : ∀ c ∈ rest.head?, c.isDigit = false) :
    scanDigits (ds ++ rest) = some (ds, rest) := by
  have hstop : rest.takeWhile Char.isDigit = [] ∧ rest.dropWhile Char.isDigit = rest := by
    cases rest with
    | nil => exact ⟨rfl, rfl⟩
    | cons c cs => simp [hrest c rfl]
  unfold scanDigits
  rw [List.takeWhile_append_of_pos hds, List.dropWhile_append_of_pos hds, hstop.1, hstop.2,
    List.append_nil]
  cases ds with
  | nil => exact absurd rfl hne
  | cons d ds => rfl

theorem scanInteger_toDigits (n : Nat) {rest : List Char}
    (hrest : ∀ c ∈ rest.head?, c.isDigit = false) :
    scanInteger (Nat.toDigits 10 n ++ rest) = some (Nat.toDigits 10 n, rest) := by
  by_cases hn : n = 0
  · subst hn
    rfl
  · obtain ⟨c, cs, hc, hne⟩ := toDigits_head hn
    have hscan := scanDigits_append Nat.toDigits_ne_nil (isDigit_toDigits n) hrest
    rw [← hscan, hc, List.cons_append]
    unfold scanInteger
    split
    · next heq => exact absurd (List.cons.inj heq).1 hne
    · rfl

theorem escape_toDigits (n : Nat) : escape (Nat.toDigits 10 n) = Nat.toDigits 10 n := by
  have hdigit : ∀ d < 10, escapeChar (Nat.digitChar d) = [Nat.digitChar d] := by decide
  induction n using Nat.strongRecOn with
  | ind n ih =>
    rw [Nat.toDigits_eq_if (by decide)]
    split
    · next hn => simp [escape, hdigit n hn]
    · rw [escape, List.flatMap_append]
      change escape _ ++ _ = _
      rw [ih (n / 10) (by omega)]
      simp [hdigit (n % 10) (by omega)]

theorem scanFraction_of_ends {rest : List Char} (h : EndsNumber rest) :
    scanFraction rest = some ([], rest) := by
  cases rest with
  | nil => rfl
  | cons c cs => simp [scanFraction, (h c rfl).2.1]

theorem scanExponent_of_ends {rest : List Char} (h : EndsNumber rest) :
    scanExponent rest = some ([], rest) := by
  cases rest with
  | nil => rfl
  | cons c cs => simp [scanExponent, (h c rfl).2.2.1, (h c rfl).2.2.2]

theorem scanNumber_text (n : Int) {rest : List Char} (h : EndsNumber rest) :
    scanNumber ((Number.whole n).text ++ rest) = some ((Number.whole n).text, rest) := by
  have hrest : ∀ c ∈ rest.head?, c.isDigit = false := fun c hc => (h c hc).1
  cases n with
  | ofNat n =>
    have hscan := scanInteger_toDigits n hrest
    obtain ⟨c, cs, hc⟩ := List.exists_cons_of_ne_nil (Nat.toDigits_ne_nil (n := n) (b := 10))
    have hdigit : c.isDigit = true := isDigit_toDigits n c (by simp [hc])
    have hsign : c ≠ '-' := by
      rintro rfl
      cases hdigit
    rw [hc] at hscan
    simp only [Number.text, hc, scanNumber, List.cons_append] at hscan ⊢
    simp [hsign, hscan, scanFraction_of_ends h, scanExponent_of_ends h]
  | negSucc n =>
    simp [scanNumber, Number.text, scanInteger_toDigits _ hrest, scanFraction_of_ends h,
      scanExponent_of_ends h]

mutual

/-- What the text of a value is read as. -/
def Value.source : Value → Source
  | .null => .null
  | .bool b => .bool b
  | .number n => .number n.text
  | .string s => .string (escape s.toList)
  | .array items => .array (itemSources items)
  | .object members => .object (memberSources members)

def itemSources : List Value → List Source
  | [] => []
  | v :: rest => v.source :: itemSources rest

def memberSources : List (String × Value) → List (List Char × Source)
  | [] => []
  | (k, v) :: rest => (escape k.toList, v.source) :: memberSources rest

end

theorem memberSources_eq_map (members : List (String × Value)) :
    memberSources members = members.map fun e => (escape e.1.toList, e.2.source) := by
  induction members with
  | nil => rfl
  | cons e rest ih => rw [memberSources, ih, List.map_cons]

mutual

def Value.Whole : Value → Prop
  | .number (.float _) => False
  | .array items => WholeItems items
  | .object members => WholeMembers members
  | _ => True

def WholeItems : List Value → Prop
  | [] => True
  | v :: rest => v.Whole ∧ WholeItems rest

def WholeMembers : List (String × Value) → Prop
  | [] => True
  | (_, v) :: rest => v.Whole ∧ WholeMembers rest

end

variable (l : Layout) (depth : Nat)

def itemsText : List Value → List Char
  | [] => []
  | v :: rest => render l (depth + 1) v ++ renderItems l depth rest

def membersText : List (String × Value) → List Char
  | [] => []
  | (k, v) :: rest =>
    quote k ++ l.colon ++ render l (depth + 1) v ++ renderMembers l depth rest

theorem skipBlanks_gap (cs : List Char) : skipBlanks (l.gap depth ++ cs) = skipBlanks cs := by
  unfold skipBlanks Layout.gap
  apply List.dropWhile_append_of_pos
  intro c hc
  split at hc
  · rcases List.mem_cons.mp hc with rfl | hc
    · rfl
    · rw [List.eq_of_mem_replicate hc]
      rfl
  · cases hc

theorem readValue_skipBlanks (fuel : Nat) {cs ds : List Char} (h : skipBlanks cs = skipBlanks ds) :
    readValue fuel cs = readValue fuel ds := by
  cases fuel with
  | zero => rfl
  | succ fuel => rw [readValue, readValue, h]

theorem readItems_skipBlanks (fuel : Nat) {cs ds : List Char} (h : skipBlanks cs = skipBlanks ds) :
    readItems fuel cs = readItems fuel ds := by
  cases fuel with
  | zero => rfl
  | succ fuel => rw [readItems, readItems, readValue_skipBlanks fuel h]

theorem readMembers_skipBlanks (fuel : Nat) {cs ds : List Char}
    (h : skipBlanks cs = skipBlanks ds) : readMembers fuel cs = readMembers fuel ds := by
  cases fuel with
  | zero => rfl
  | succ fuel => rw [readMembers, readMembers, h]

/-- A text that starts with a sign or a digit is not taken for anything but a number. -/
theorem readValue_of_startsNumber (fuel : Nat) {c : Char} (hc : (c == '-' || c.isDigit) = true)
    (cs : List Char) :
    readValue (fuel + 1) (c :: cs) = (scanNumber (c :: cs)).map fun x => (.number x.1, x.2) := by
  have hothers : ∀ d ∈ [' ', '\t', '\n', '\r', '\x7b', '[', '"', 'n', 't', 'f'],
      (d == '-' || d.isDigit) = false := by simp
  have hne : ∀ d ∈ [' ', '\t', '\n', '\r', '\x7b', '[', '"', 'n', 't', 'f'], c ≠ d := by
    rintro d hd rfl
    rw [hothers c hd] at hc
    cases hc
  simp only [List.forall_mem_cons] at hne
  obtain ⟨hblank, htab, hline, hreturn, hbrace, hbracket, hquote, hn, ht, hf, -⟩ := hne
  have hskip : skipBlanks (c :: cs) = c :: cs := by
    simp [skipBlanks, hblank, htab, hline, hreturn]
  rw [readValue, hskip]
  simp [hbrace, hbracket, hquote, hn, ht, hf]

theorem text_startsNumber (n : Int) :
    ∃ c cs, (Number.whole n).text = c :: cs ∧ (c == '-' || c.isDigit) = true := by
  cases n with
  | ofNat n =>
    obtain ⟨c, cs, hc⟩ := List.exists_cons_of_ne_nil (Nat.toDigits_ne_nil (n := n) (b := 10))
    have hdigit : c.isDigit = true := isDigit_toDigits n c (by simp [hc])
    exact ⟨c, cs, hc, by simp [hdigit]⟩
  | negSucc n => exact ⟨'-', _, rfl, rfl⟩

def closers : List Char := [' ', '\t', '\n', '\r', ']']

theorem skipBlanks_of_notMem {c : Char} (h : c ∉ closers) (cs : List Char) :
    skipBlanks (c :: cs) = c :: cs := by
  simp only [closers, List.mem_cons, not_or] at h
  simp [skipBlanks, h]

theorem render_head {v : Value} (hv : v.Whole) :
    ∃ c cs, render l depth v = c :: cs ∧ c ∉ closers := by
  cases v with
  | null => exact ⟨'n', _, rfl, by decide⟩
  | bool b => cases b <;> exact ⟨_, _, rfl, by decide⟩
  | number n =>
    cases n with
    | whole n =>
      obtain ⟨c, cs, hc, hstarts⟩ := text_startsNumber n
      refine ⟨c, cs, hc, ?_⟩
      have hclosers : ∀ d ∈ closers, (d == '-' || d.isDigit) = false := by simp [closers]
      intro hmem
      rw [hclosers c hmem] at hstarts
      cases hstarts
    | float x => exact hv.elim
  | string s => exact ⟨'"', _, rfl, by decide⟩
  | array items => cases items <;> exact ⟨'[', _, rfl, by decide⟩
  | object members => cases members <;> exact ⟨'\x7b', _, rfl, by decide⟩

theorem endsNumber_cons {c : Char} (h : c ∈ [',', ']', '\x7d', '\n']) (cs : List Char) :
    EndsNumber (c :: cs) := by
  have hall : ∀ d ∈ [',', ']', '\x7d', '\n'],
      d.isDigit = false ∧ d ≠ '.' ∧ d ≠ 'e' ∧ d ≠ 'E' := by simp
  intro d hd
  obtain rfl : c = d := Option.some.inj hd
  exact hall c h

theorem endsNumber_gap {c : Char} (h : c ∈ [',', ']', '\x7d', '\n']) (cs : List Char) :
    EndsNumber (l.gap depth ++ c :: cs) := by
  unfold Layout.gap
  split
  · exact endsNumber_cons (by decide) _
  · exact endsNumber_cons h cs

theorem endsNumber_renderItems (items : List Value) (rest : List Char) :
    EndsNumber (renderItems l depth items ++ rest) := by
  cases items with
  | nil =>
    rw [renderItems, List.append_assoc]
    exact endsNumber_gap l depth (by decide) rest
  | cons v more =>
    rw [renderItems]
    exact endsNumber_cons (by decide) _

theorem endsNumber_renderMembers (members : List (String × Value)) (rest : List Char) :
    EndsNumber (renderMembers l depth members ++ rest) := by
  cases members with
  | nil =>
    rw [renderMembers, List.append_assoc]
    exact endsNumber_gap l depth (by decide) rest
  | cons e more =>
    rw [renderMembers]
    exact endsNumber_cons (by decide) _

theorem renderItems_cons (v : Value) (more : List Value) :
    renderItems l depth (v :: more) =
      ',' :: (l.gap (depth + 1) ++ itemsText l depth (v :: more)) := by
  simp [renderItems, itemsText]

theorem renderMembers_cons (e : String × Value) (more : List (String × Value)) :
    renderMembers l depth (e :: more) =
      ',' :: (l.gap (depth + 1) ++ membersText l depth (e :: more)) := by
  simp [renderMembers, membersText]

theorem skipBlanks_renderItems_nil (rest : List Char) :
    skipBlanks (renderItems l depth [] ++ rest) = ']' :: rest := by
  rw [renderItems, List.append_assoc, skipBlanks_gap]
  rfl

theorem skipBlanks_renderMembers_nil (rest : List Char) :
    skipBlanks (renderMembers l depth [] ++ rest) = '\x7d' :: rest := by
  rw [renderMembers, List.append_assoc, skipBlanks_gap]
  rfl

theorem length_renderItems_pos (items : List Value) : 0 < (renderItems l depth items).length := by
  cases items <;> simp [renderItems]

theorem exists_succ_of_render {v : Value} (hv : v.Whole) {fuel : Nat}
    (hf : 2 * (render l depth v).length ≤ fuel) : ∃ n, fuel = n + 1 := by
  obtain ⟨c, cs, hc, -⟩ := render_head l depth hv
  rw [hc, List.length_cons] at hf
  exact ⟨fuel - 1, by omega⟩

theorem readValue_string (fuel : Nat) (cs : List Char) :
    readValue (fuel + 1) ('"' :: cs) = (scanString cs).map fun x => (.string x.1, x.2) := rfl

theorem readValue_array (fuel : Nat) {text items : List Char} (h : skipBlanks text = items)
    (hne : ∀ cs, items ≠ ']' :: cs) :
    readValue (fuel + 1) ('[' :: text) = (readItems fuel items).map fun x => (.array x.1, x.2) := by
  have hskip : skipBlanks ('[' :: text) = '[' :: text := rfl
  rw [readValue, hskip]
  simp [h]

theorem readValue_object (fuel : Nat) {text members : List Char} (h : skipBlanks text = members)
    (hne : ∀ cs, members ≠ '\x7d' :: cs) :
    readValue (fuel + 1) ('\x7b' :: text) =
      (readMembers fuel members).map fun x => (.object x.1, x.2) := by
  have hskip : skipBlanks ('\x7b' :: text) = '\x7b' :: text := rfl
  rw [readValue, hskip]
  simp [h]

theorem skipBlanks_itemsText {v : Value} (hv : v.Whole) (more : List Value) (rest : List Char) :
    skipBlanks (l.gap (depth + 1) ++ (itemsText l depth (v :: more) ++ rest)) =
        itemsText l depth (v :: more) ++ rest ∧
      ∀ cs, itemsText l depth (v :: more) ++ rest ≠ ']' :: cs := by
  obtain ⟨c, cs, hc, hopen⟩ := render_head l (depth + 1) hv
  rw [skipBlanks_gap, itemsText, hc]
  refine ⟨skipBlanks_of_notMem hopen _, ?_⟩
  intro ds heq
  obtain ⟨rfl, -⟩ := List.cons.inj heq
  exact hopen (by decide)

theorem skipBlanks_membersText (e : String × Value) (more : List (String × Value))
    (rest : List Char) :
    skipBlanks (l.gap (depth + 1) ++ (membersText l depth (e :: more) ++ rest)) =
        membersText l depth (e :: more) ++ rest ∧
      ∀ cs, membersText l depth (e :: more) ++ rest ≠ '\x7d' :: cs := by
  rw [skipBlanks_gap, membersText, quote]
  refine ⟨rfl, ?_⟩
  intro ds heq
  have hhead : '"' = '\x7d' := (List.cons.inj heq).1
  cases hhead

theorem readItems_last {fuel : Nat} {cs text rest : List Char} {source : Source}
    (h : readValue fuel cs = some (source, text)) (htext : skipBlanks text = ']' :: rest) :
    readItems (fuel + 1) cs = some ([source], rest) := by
  simp [readItems, h, htext]

theorem readItems_next {fuel : Nat} {cs text more : List Char} {source : Source}
    (h : readValue fuel cs = some (source, text)) (htext : skipBlanks text = ',' :: more) :
    readItems (fuel + 1) cs = (readItems fuel more).map fun x => (source :: x.1, x.2) := by
  simp [readItems, h, htext]

theorem readMembers_key (fuel : Nat) (k : String) (text : List Char) :
    readMembers (fuel + 1) (quote k ++ l.colon ++ text) =
      (readValue fuel text).bind fun x =>
        match skipBlanks x.2 with
        | ',' :: more => (readMembers fuel more).map fun y => ((escape k.toList, x.1) :: y.1, y.2)
        | '\x7d' :: rest => some ([(escape k.toList, x.1)], rest)
        | _ => none := by
  have hquote : skipBlanks (quote k ++ l.colon ++ text) =
      '"' :: (escape k.toList ++ '"' :: (l.colon ++ text)) := by
    simp [quote, skipBlanks]
  obtain ⟨blanks, hcolon, hblanks⟩ : ∃ blanks, skipBlanks (l.colon ++ text) = ':' :: blanks ∧
      skipBlanks blanks = skipBlanks text := by
    unfold Layout.colon
    split
    · exact ⟨' ' :: text, rfl, rfl⟩
    · exact ⟨text, rfl, rfl⟩
  rw [readMembers, hquote]
  simp only [scanString_escape, Option.bind_eq_bind, Option.bind_some, hcolon]
  exact congrArg (Option.bind · _) (readValue_skipBlanks fuel hblanks)

mutual

theorem readValue_render : ∀ (v : Value) (depth fuel : Nat) (rest : List Char), v.Whole →
    EndsNumber rest → 2 * (render l depth v).length ≤ fuel →
    readValue fuel (render l depth v ++ rest) = some (v.source, rest)
  | .null, depth, fuel, rest, hv, _, hf => by
    obtain ⟨fuel, rfl⟩ := exists_succ_of_render l depth hv hf
    rfl
  | .bool b, depth, fuel, rest, hv, _, hf => by
    obtain ⟨fuel, rfl⟩ := exists_succ_of_render l depth hv hf
    cases b <;> rfl
  | .number (.whole n), depth, fuel, rest, hv, hrest, hf => by
    obtain ⟨fuel, rfl⟩ := exists_succ_of_render l depth hv hf
    obtain ⟨c, cs, hc, hstarts⟩ := text_startsNumber n
    have hscan := scanNumber_text n hrest
    rw [render, Value.source]
    rw [hc, List.cons_append] at hscan ⊢
    rw [readValue_of_startsNumber fuel hstarts, hscan]
    rfl
  | .number (.float x), depth, fuel, rest, hv, _, _ => hv.elim
  | .string s, depth, fuel, rest, hv, _, hf => by
    obtain ⟨fuel, rfl⟩ := exists_succ_of_render l depth hv hf
    rw [render, quote, List.cons_append, List.cons_append, readValue_string, List.append_assoc,
      List.singleton_append, scanString_escape]
    rfl
  | .array [], depth, fuel, rest, hv, _, hf => by
    obtain ⟨fuel, rfl⟩ := exists_succ_of_render l depth hv hf
    rfl
  | .array (v :: more), depth, fuel, rest, hv, _, hf => by
    have hitems := readItems_render (v :: more) depth
    obtain ⟨fuel, rfl⟩ := exists_succ_of_render l depth hv hf
    have htext : render l depth (.array (v :: more)) =
        '[' :: (l.gap (depth + 1) ++ itemsText l depth (v :: more)) := by
      simp [render, itemsText]
    obtain ⟨hskip, hne⟩ := skipBlanks_itemsText l depth hv.1 more rest
    rw [htext, List.length_cons, List.length_append] at hf
    rw [htext, List.cons_append, List.append_assoc, readValue_array fuel hskip hne,
      hitems fuel rest (List.cons_ne_nil _ _) hv (by omega)]
    rfl
  | .object [], depth, fuel, rest, hv, _, hf => by
    obtain ⟨fuel, rfl⟩ := exists_succ_of_render l depth hv hf
    rfl
  | .object (e :: more), depth, fuel, rest, hv, _, hf => by
    have hmembers := readMembers_render (e :: more) depth
    obtain ⟨fuel, rfl⟩ := exists_succ_of_render l depth hv hf
    have htext : render l depth (.object (e :: more)) =
        '\x7b' :: (l.gap (depth + 1) ++ membersText l depth (e :: more)) := by
      simp [render, membersText]
    obtain ⟨hskip, hne⟩ := skipBlanks_membersText l depth e more rest
    rw [htext, List.length_cons, List.length_append] at hf
    rw [htext, List.cons_append, List.append_assoc, readValue_object fuel hskip hne,
      hmembers fuel rest (List.cons_ne_nil _ _) hv (by omega)]
    rfl

theorem readItems_render : ∀ (items : List Value) (depth fuel : Nat) (rest : List Char),
    items ≠ [] → WholeItems items → 2 * (itemsText l depth items).length ≤ fuel →
    readItems fuel (itemsText l depth items ++ rest) = some (itemSources items, rest)
  | [], _, _, _, hne, _, _ => absurd rfl hne
  | v :: more, depth, fuel, rest, _, hv, hf => by
    have hvalue := readValue_render v (depth + 1)
    have hmore := readItems_render more depth
    rw [itemsText, List.length_append] at hf
    have hfirst : 2 * (render l (depth + 1) v).length ≤ fuel := by omega
    obtain ⟨fuel, rfl⟩ := exists_succ_of_render l (depth + 1) hv.1 hfirst
    have hends := endsNumber_renderItems l depth more rest
    -- one unit goes to the list; the bracket or comma behind the item makes up for it
    have hlength := length_renderItems_pos l depth more
    have hfound := hvalue fuel _ hv.1 hends (by omega)
    rw [itemsText, List.append_assoc]
    cases more with
    | nil => exact readItems_last hfound (skipBlanks_renderItems_nil l depth rest)
    | cons w more =>
      rw [renderItems_cons] at hf hfound ⊢
      rw [List.length_cons, List.length_append] at hf
      rw [List.cons_append, List.append_assoc] at hfound ⊢
      rw [readItems_next hfound rfl, readItems_skipBlanks fuel (skipBlanks_gap l (depth + 1) _),
        hmore fuel rest (List.cons_ne_nil _ _) hv.2 (by omega)]
      rfl

theorem readMembers_render : ∀ (members : List (String × Value)) (depth fuel : Nat)
    (rest : List Char), members ≠ [] → WholeMembers members →
    2 * (membersText l depth members).length ≤ fuel →
    readMembers fuel (membersText l depth members ++ rest) = some (memberSources members, rest)
  | [], _, _, _, hne, _, _ => absurd rfl hne
  | (k, v) :: more, depth, fuel, rest, _, hv, hf => by
    have hvalue := readValue_render v (depth + 1)
    have hmore := readMembers_render more depth
    rw [membersText, List.length_append, List.length_append] at hf
    have hfirst : 2 * (render l (depth + 1) v).length ≤ fuel := by omega
    obtain ⟨fuel, rfl⟩ := exists_succ_of_render l (depth + 1) hv.1 hfirst
    have hends := endsNumber_renderMembers l depth more rest
    have hkey : 0 < (quote k).length := List.length_pos_of_ne_nil (List.cons_ne_nil _ _)
    rw [List.length_append] at hf
    have hfound := hvalue fuel _ hv.1 hends (by omega)
    rw [membersText, List.append_assoc, List.append_assoc, readMembers_key, hfound]
    cases more with
    | nil =>
      rw [Option.bind_some, skipBlanks_renderMembers_nil l depth rest]
      rfl
    | cons e more =>
      rw [renderMembers_cons] at hf ⊢
      rw [List.length_cons, List.length_append] at hf
      rw [List.cons_append, List.append_assoc, Option.bind_some]
      change (readMembers fuel (l.gap (depth + 1) ++ _)).map _ = _
      rw [readMembers_skipBlanks fuel (skipBlanks_gap l (depth + 1) _),
        hmore fuel rest (List.cons_ne_nil _ _) hv.2 (by omega)]
      rfl

end

/-- The text of a value, in either layout, is read as that value. -/
theorem ofText_render {v : Value} (hv : v.Whole) :
    ofText? (String.ofList (render l 0 v)) = some v.source := by
  have hread := readValue_render l v 0 (2 * (render l 0 v).length + 2) [] hv
    (fun c hc => by cases hc) (by omega)
  rw [List.append_nil] at hread
  rw [ofText?, String.length_ofList, String.toList_ofList, hread]
  rfl

theorem ofText_compact {v : Value} (hv : v.Whole) : ofText? v.compact = some v.source :=
  ofText_render .compact hv

theorem ofText_pretty {v : Value} (hv : v.Whole) : ofText? v.pretty = some v.source :=
  ofText_render .pretty hv

theorem mapM_self {α : Type} {f : α → Option α} {xs : List α} (h : ∀ x ∈ xs, f x = some x) :
    xs.mapM f = some xs := by
  induction xs with
  | nil => rfl
  | cons x rest ih =>
    rw [List.forall_mem_cons] at h
    simp [h.1, ih h.2]

theorem keyed_source (members : List (String × Source)) :
    keyed? (members.map fun e => (escape e.1.toList, e.2)) = some members := by
  rw [keyed?, List.mapM_map, mapM_self]
  intro e he
  simp [textOf_escape]

theorem length_filter_key_le_one {β : Type} {entries : List (String × β)}
    (h : (entries.map (·.1)).Nodup) (k : String) :
    (entries.filter (·.1 == k)).length ≤ 1 := by
  have hcount := List.nodup_iff_count_le_one.mp h k
  rwa [List.count, List.countP_map, List.countP_eq_length_filter] at hcount

theorem parts_written {members : List (String × Source)} (hkeys : (members.map (·.1)).Nodup)
    (names : List String) :
    parts? names (.object (members.map fun e => (escape e.1.toList, e.2))) =
      some (names.map fun n => (members.lookup n).elim .lacking .given) := by
  have honce : (names.all fun n => (members.filter (·.1 == n)).length ≤ 1) = true :=
    List.all_eq_true.mpr fun n _ => decide_eq_true (length_filter_key_le_one hkeys n)
  -- a reader takes the members under their escaped names; unescaped they are the members again
  rw [parts?, keyed_source, Option.bind_eq_bind, Option.bind_some, if_pos honce]

end Covenant.Json
