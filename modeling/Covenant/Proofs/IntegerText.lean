import Covenant.Proofs.ExactValue
import Mathlib.Data.List.TakeWhile
import Mathlib.Data.Nat.Digits.Defs

namespace Covenant

namespace Text

def Digits (ds : List Char) : Prop := ds ≠ [] ∧ ∀ c ∈ ds, c.isDigit = true

instance (ds : List Char) : Decidable (Digits ds) :=
  inferInstanceAs (Decidable (ds ≠ [] ∧ ∀ c ∈ ds, c.isDigit = true))

/-- The number that digits write, the last of them for the ones. -/
def decimalValue (ds : List Char) : ℕ := Nat.ofDigits 10 (ds.reverse.map Json.Number.digitValue)

/-- Digits behind at most one sign, and the integer that they write. -/
inductive Numeral : List Char → ℤ → Prop
  | unsigned {ds : List Char} (h : Digits ds) : Numeral ds (decimalValue ds)
  | plus {ds : List Char} (h : Digits ds) : Numeral ('+' :: ds) (decimalValue ds)
  | minus {ds : List Char} (h : Digits ds) : Numeral ('-' :: ds) (-decimalValue ds)

def Blanks (cs : List Char) : Prop := ∀ c ∈ cs, isBlank c = true

instance (cs : List Char) : Decidable (Blanks cs) :=
  decidable_of_iff (cs.all isBlank = true) List.all_eq_true

/-- The text is a numeral of the integer, with nothing but blanks before and behind it. -/
def Writes (s : String) (n : ℤ) : Prop :=
  ∃ before numeral after, s.toList = before ++ numeral ++ after ∧ Blanks before ∧ Blanks after ∧
    Numeral numeral n

/-- The decimal text of an integer, with some zeros between the sign and the digits. -/
def decimalText (n : ℤ) (zeros : ℕ) : List Char :=
  (if n < 0 then ['-'] else []) ++ (List.replicate zeros '0' ++ Nat.toDigits 10 n.natAbs)

theorem natOfDigits_eq (ds : List Char) : Json.Number.natOfDigits ds = decimalValue ds := by
  induction ds using List.reverseRecOn with
  | nil => rfl
  | append_singleton ds c ih =>
    rw [decimalValue, List.reverse_append, List.reverse_singleton, List.singleton_append,
      List.map_cons, Nat.ofDigits_cons, ← decimalValue, ← ih, Json.Number.natOfDigits,
      List.foldl_append]
    exact Nat.add_comm ..

theorem unsigned_eq (cs : List Char) :
    unsigned? cs = if Digits cs then some (decimalValue cs) else none := by
  have hdigits : (cs.isEmpty || !cs.all Char.isDigit) = true ↔ ¬Digits cs := by
    rw [← Bool.not_eq_false, not_iff_not]
    simp only [Digits, Bool.or_eq_false_iff, List.isEmpty_eq_false_iff, Bool.not_eq_false',
      List.all_eq_true]
  rw [unsigned?, natOfDigits_eq]
  simp only [hdigits, ite_not]

theorem Numeral.cons_iff {c : Char} (hc : c.isDigit = false) {ds : List Char} {n : ℤ} :
    Numeral (c :: ds) n ↔
      Digits ds ∧ (c = '+' ∧ n = decimalValue ds ∨ c = '-' ∧ n = -decimalValue ds) := by
  constructor
  · intro h
    generalize hcs : c :: ds = cs at h
    cases h with
    | unsigned hds =>
      subst hcs
      have hd := hds.2 c List.mem_cons_self
      simp [hc] at hd
    | plus hds =>
      obtain ⟨rfl, rfl⟩ := List.cons.inj hcs
      exact ⟨hds, .inl ⟨rfl, rfl⟩⟩
    | minus hds =>
      obtain ⟨rfl, rfl⟩ := List.cons.inj hcs
      exact ⟨hds, .inr ⟨rfl, rfl⟩⟩
  · rintro ⟨hds, ⟨rfl, rfl⟩ | ⟨rfl, rfl⟩⟩
    · exact .plus hds
    · exact .minus hds

theorem Numeral.iff_digits {cs : List Char} (hminus : ∀ ds, cs ≠ '-' :: ds)
    (hplus : ∀ ds, cs ≠ '+' :: ds) {n : ℤ} : Numeral cs n ↔ Digits cs ∧ n = decimalValue cs := by
  constructor
  · intro h
    cases h with
    | unsigned hds => exact ⟨hds, rfl⟩
    | plus hds => exact absurd rfl (hplus _)
    | minus hds => exact absurd rfl (hminus _)
  · rintro ⟨hds, rfl⟩
    exact .unsigned hds

theorem signed_eq_some {cs : List Char} {n : ℤ} : signed? cs = some n ↔ Numeral cs n := by
  unfold signed?
  split
  · next ds =>
    rw [Numeral.cons_iff rfl, unsigned_eq]
    split <;> simp [*, eq_comm]
  · next ds =>
    rw [Numeral.cons_iff rfl, unsigned_eq]
    split <;> simp [*, eq_comm]
  · next hminus hplus =>
    rw [Numeral.iff_digits hminus hplus, unsigned_eq]
    split <;> simp [*, eq_comm]

theorem append_eq_cut {a b xs ys : List Char} {c : Char} (h : a ++ b = xs ++ c :: ys) :
    (∃ more, a = xs ++ c :: more) ∨ ∃ more, xs = a ++ more ∧ b = more ++ c :: ys := by
  rcases List.append_eq_append_iff.mp h with ⟨more, hxs, hb⟩ | ⟨more, ha, hcut⟩
  · exact .inr ⟨more, hxs, hb⟩
  · cases more with
    | nil => exact .inr ⟨[], by rw [ha, List.append_nil, List.append_nil], hcut.symm⟩
    | cons d more =>
      obtain ⟨rfl, -⟩ := List.cons.inj hcut
      exact .inl ⟨more, ha⟩

theorem Numeral.char {cs : List Char} {n : ℤ} (h : Numeral cs n) {xs ys : List Char} {c : Char}
    (hcs : cs = xs ++ c :: ys) : c.isDigit = true ∨ (c = '+' ∨ c = '-') ∧ xs = [] := by
  have hsigned : ∀ {sign : Char} {ds : List Char}, Digits ds → sign :: ds = xs ++ c :: ys →
      c.isDigit = true ∨ c = sign ∧ xs = [] := by
    intro sign ds hds heq
    rcases List.cons_eq_append_iff.mp heq with ⟨rfl, hcons⟩ | ⟨more, -, rfl⟩
    · exact .inr ⟨(List.cons.inj hcons).1, rfl⟩
    · exact .inl (hds.2 c (by simp))
  cases h with
  | unsigned hds => exact .inl (hds.2 c (by simp [hcs]))
  | plus hds => exact (hsigned hds hcs).imp_right (And.imp_left .inl)
  | minus hds => exact (hsigned hds hcs).imp_right (And.imp_left .inr)

theorem Numeral.not_isBlank {cs : List Char} {n : ℤ} (h : Numeral cs n) :
    ∀ c ∈ cs, isBlank c = false := by
  intro c hc
  obtain ⟨xs, ys, hcs⟩ := List.append_of_mem hc
  rcases h.char hcs with hd | ⟨rfl | rfl, -⟩
  · have hrange : 48 ≤ c.toNat ∧ c.toNat ≤ 57 := Char.isDigit_iff_toNat.mp hd
    simp only [isBlank]
    grind
  · rfl
  · rfl

theorem Numeral.ne_nil {cs : List Char} {n : ℤ} (h : Numeral cs n) : cs ≠ [] := by
  cases h with
  | unsigned hds => exact hds.1
  | plus hds => exact List.cons_ne_nil _ _
  | minus hds => exact List.cons_ne_nil _ _

theorem exists_trim (cs : List Char) :
    ∃ before after, cs = before ++ trim cs ++ after ∧ Blanks before ∧ Blanks after := by
  refine ⟨cs.takeWhile isBlank, ((trimLeft cs).reverse.takeWhile isBlank).reverse, ?_, ?_, ?_⟩
  · rw [trim, trimRight, List.append_assoc, ← List.reverse_append, List.takeWhile_append_dropWhile,
      List.reverse_reverse, trimLeft, List.takeWhile_append_dropWhile]
  · exact fun c hc => List.mem_takeWhile_imp hc
  · exact fun c hc => List.mem_takeWhile_imp (List.mem_reverse.mp hc)

theorem dropWhile_blanks {before core : List Char} (hb : Blanks before) (hne : core ≠ [])
    (hc : ∀ c ∈ core, isBlank c = false) (rest : List Char) :
    (before ++ (core ++ rest)).dropWhile isBlank = core ++ rest := by
  obtain ⟨c, core, rfl⟩ := List.exists_cons_of_ne_nil hne
  rw [List.dropWhile_append_of_pos hb, List.cons_append]
  exact List.dropWhile_cons_of_neg (by simp [hc c])

theorem trim_blanks {before core after : List Char} (hb : Blanks before) (ha : Blanks after)
    (hne : core ≠ []) (hc : ∀ c ∈ core, isBlank c = false) :
    trim (before ++ core ++ after) = core := by
  have hleft : trimLeft (before ++ core ++ after) = core ++ after := by
    rw [trimLeft, List.append_assoc, dropWhile_blanks hb hne hc]
  have hright : ((core ++ after).reverse).dropWhile isBlank = core.reverse := by
    have hskip := dropWhile_blanks (fun c h => ha c (List.mem_reverse.mp h))
      (List.reverse_ne_nil_iff.mpr hne) (fun c h => hc c (List.mem_reverse.mp h)) []
    rwa [List.append_nil, ← List.reverse_append] at hskip
  rw [trim, hleft, trimRight, hright, List.reverse_reverse]

theorem numeral_trim {s : String} {n : ℤ} : Numeral (trim s.toList) n ↔ Writes s n := by
  constructor
  · intro h
    obtain ⟨before, after, hs, hb, ha⟩ := exists_trim s.toList
    exact ⟨before, _, after, hs, hb, ha, h⟩
  · rintro ⟨before, numeral, after, hs, hb, ha, h⟩
    rw [hs, trim_blanks hb ha h.ne_nil h.not_isBlank]
    exact h

theorem int64_eq_some {s : String} {n : ℤ} :
    int64? s = some n ↔ Writes s n ∧ -2 ^ 63 ≤ n ∧ n ≤ 2 ^ 63 - 1 := by
  rw [int64?, Option.filter_eq_some_iff, signed_eq_some, numeral_trim, Validation.fitsInt64_bounds,
    Int.le_sub_one_iff]

example : int64? "-9223372036854775808" = some (-2 ^ 63) := by decide +kernel

example : int64? "9223372036854775808" = none := by decide +kernel

/-- In a text that writes an integer, digits are all that stands between the sign and the blanks at
the end. -/
theorem Writes.char {s : String} {n : ℤ} (h : Writes s n) {xs ys : List Char} {c : Char}
    (hs : s.toList = xs ++ c :: ys) :
    c.isDigit = true ∨ (c = '+' ∨ c = '-') ∧ Blanks xs ∨
      isBlank c = true ∧ (Blanks xs ∨ Blanks ys) := by
  obtain ⟨before, numeral, after, htext, hb, ha, hn⟩ := h
  rcases append_eq_cut (htext.symm.trans hs) with ⟨more, hfront⟩ | ⟨more, -, rfl⟩
  · rcases append_eq_cut hfront with ⟨rest, rfl⟩ | ⟨rest, rfl, hnumeral⟩
    · exact .inr (.inr ⟨hb c (by simp), .inl fun d hd => hb d (by simp [hd])⟩)
    · rcases hn.char hnumeral with hd | ⟨hsign, rfl⟩
      · exact .inl hd
      · exact .inr (.inl ⟨hsign, by simpa using hb⟩)
  · exact .inr (.inr ⟨ha c (by simp), .inr fun d hd => ha d (by simp [hd])⟩)

theorem numeral_decimalText (n : ℤ) (zeros : ℕ) : Numeral (decimalText n zeros) n := by
  let ds := List.replicate zeros '0' ++ Nat.toDigits 10 n.natAbs
  have hds : Digits ds := by
    refine ⟨by simp [ds, Nat.toDigits_ne_nil], ?_⟩
    intro c hc
    rcases List.mem_append.mp hc with hc | hc
    · rw [List.eq_of_mem_replicate hc]
      rfl
    · exact Nat.isDigit_of_mem_toDigits (by decide) (by decide) hc
  have hvalue : decimalValue ds = n.natAbs := by
    rw [← natOfDigits_eq]
    show Nat.ofDigitChars 10 ds 0 = n.natAbs
    rw [Nat.ofDigitChars_append, Nat.ofDigitChars_replicate_zero, Nat.mul_zero,
      Nat.ofDigitChars_ten_toDigits]
  unfold decimalText
  split
  · next h =>
    have hn : n = -decimalValue ds := by omega
    conv => arg 2; rw [hn]
    exact .minus hds
  · next h =>
    have hn : n = decimalValue ds := by omega
    conv => arg 2; rw [hn]
    exact .unsigned hds

end Text

namespace Validation

open Json Text

theorem coerceInteger_string {s : String} {n : ℤ} :
    coerceInteger (.string s) = .ok n ↔ Writes s n ∧ -2 ^ 63 ≤ n ∧ n ≤ 2 ^ 63 - 1 := by
  rw [← int64_eq_some, coerceInteger]
  cases int64? s <;> simp

/-- A text comes to an integer just if it writes that integer, as a numeral between blanks, and the
integer has 64 bits; every other text is refused. So the decimal text of each of these integers is
taken, with or without zeros in front of its digits and blanks around it; and all that a text holds
that is taken are blanks at its ends, digits, and a sign in front of them. -/
theorem text_coerced (path : String) (s : String) :
    (∀ n, validateAt path .integer (.string s) = .ok (.integer n) ↔
      Writes s n ∧ -2 ^ 63 ≤ n ∧ n ≤ 2 ^ 63 - 1) ∧
    (validateAt path .integer (.string s) = .error ⟨path, s!"'{s}' is not a valid integer"⟩ ↔
      ∀ n, Writes s n → n < -2 ^ 63 ∨ 2 ^ 63 - 1 < n) ∧
    (∀ n zeros before after, -2 ^ 63 ≤ n → n ≤ 2 ^ 63 - 1 → Blanks before → Blanks after →
      s.toList = before ++ decimalText n zeros ++ after →
      validateAt path .integer (.string s) = .ok (.integer n)) ∧
    ∀ d, validateAt path .integer (.string s) = .ok d → ∀ xs c ys, s.toList = xs ++ c :: ys →
      c.isDigit = true ∨ (c = '+' ∨ c = '-') ∧ Blanks xs ∨
        isBlank c = true ∧ (Blanks xs ∨ Blanks ys) := by
  have hok : ∀ n, validateAt path .integer (.string s) = .ok (.integer n) ↔
      Writes s n ∧ -2 ^ 63 ≤ n ∧ n ≤ 2 ^ 63 - 1 := by
    intro n
    rw [validateAt_integer_ok, coerceInteger_string]
  refine ⟨hok, ?_, ?_, ?_⟩
  · cases hs : int64? s with
    | none =>
      refine iff_of_true (by simp [validateAt, coerceInteger, hs]) ?_
      intro n hn
      by_contra! hbounds
      rw [int64_eq_some.mpr ⟨hn, hbounds⟩] at hs
      cases hs
    | some n =>
      obtain ⟨hn, hlow, hhigh⟩ := int64_eq_some.mp hs
      refine iff_of_false (by simp [validateAt, coerceInteger, hs]) ?_
      intro h
      have hout := h n hn
      omega
  · intro n zeros before after hlow hhigh hb ha hs
    exact (hok n).mpr ⟨⟨before, _, after, hs, hb, ha, numeral_decimalText n zeros⟩, hlow, hhigh⟩
  · intro d hd xs c ys hs
    rw [validateAt_ok] at hd
    obtain ⟨n, hn, -⟩ := hd
    exact (coerceInteger_string.mp hn).1.char hs

/-- Zeros between the sign and the digits, and blanks of two kinds around them. -/
theorem padded_text_coerced :
    let s := "\u2003-007\n"
    Blanks ['\u2003'] ∧ Blanks ['\n'] ∧ s.toList = ['\u2003'] ++ decimalText (-7) 2 ++ ['\n'] ∧
      validate .integer (.string s) = .ok (.integer (-7)) := by
  intro s
  have hb : Blanks ['\u2003'] := by decide
  have ha : Blanks ['\n'] := by decide
  have hs : s.toList = ['\u2003'] ++ decimalText (-7) 2 ++ ['\n'] := by decide +kernel
  exact ⟨hb, ha, hs, (text_coerced rootPath s).2.2.1 (-7) 2 _ _ (by decide) (by decide) hb ha hs⟩

end Validation

end Covenant
