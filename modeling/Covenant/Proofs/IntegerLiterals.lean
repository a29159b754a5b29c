import Covenant.Proofs.Rounding
import Mathlib.Data.List.TakeWhile

namespace Covenant

open Json

namespace Binary64

/-- The least integer of 64 bits. -/
def lowerBound : Binary64 := ⟨true, 2 ^ 52, 11⟩

/-- The next number below it. -/
def belowLowerBound : Binary64 := ⟨true, 2 ^ 52 + 1, 11⟩

/-- The first integer beyond 64 bits. -/
def upperBound : Binary64 := ⟨false, 2 ^ 52, 11⟩

theorem lowerBound_value : lowerBound.value = -2 ^ 63 := by
  norm_num [lowerBound, value, signed, magnitude]

theorem belowLowerBound_value : belowLowerBound.value = -2 ^ 63 - 2048 := by
  norm_num [belowLowerBound, value, signed, magnitude]

theorem upperBound_value : upperBound.value = 2 ^ 63 := by
  norm_num [upperBound, value, signed, magnitude]

theorem canonical_mk (negative : Bool) {m : ℕ} {e : ℤ}
    (h : 2 ^ 52 ≤ m ∧ m < 2 ^ 53 ∧ minExponent ≤ e ∧ e ≤ maxExponent) :
    Canonical ⟨negative, m, e⟩ := ⟨h.2.1, .inl h.1, h.2.2.1, h.2.2.2⟩

theorem lowerBound_canonical : lowerBound.Canonical := canonical_mk true (by decide)

theorem belowLowerBound_canonical : belowLowerBound.Canonical := canonical_mk true (by decide)

theorem upperBound_canonical : upperBound.Canonical := canonical_mk false (by decide)

variable {x : Binary64} {n : ℤ}

theorem magnitude_of_value_neg (h : x.value < 0) : x.magnitude = -x.value := by
  have hmag := x.magnitude_nonneg
  rw [value, signed] at h ⊢
  split
  · rw [neg_neg]
  · next hsign =>
    rw [if_neg hsign] at h
    exact absurd h (not_lt.mpr hmag)

theorem Canonical.le_exponent (hx : x.Canonical) (h : x.value ≤ -2 ^ 63) : 11 ≤ x.exponent := by
  by_contra! hlt
  have hbelow := hx.magnitude_lt hlt
  have hstep : (2 : ℚ) ^ (11 : ℤ) = 2048 := by norm_num
  rw [magnitude_of_value_neg (by linarith), hstep] at hbelow
  linarith

/-- Beyond the lower bound the numbers are a step of 2048 apart. -/
theorem Canonical.value_le_below (hx : x.Canonical) (h : x.value < -2 ^ 63) :
    x.value ≤ -2 ^ 63 - 2048 := by
  obtain ⟨k, hk⟩ := exists_steps (hx.le_exponent h.le)
  have hstep : (2 : ℚ) ^ (11 : ℤ) = 2048 := by norm_num
  rw [magnitude_of_value_neg (by linarith), hstep] at hk
  have hlt : ((2 ^ 52 : ℕ) : ℚ) < k := by
    push_cast
    linarith
  have hnext : ((2 ^ 52 + 1 : ℕ) : ℚ) ≤ k := Nat.cast_le.mpr (Nat.succ_le_of_lt (Nat.cast_lt.mp hlt))
  push_cast at hnext
  linarith

theorem Canonical.odd_below (hx : x.Canonical) (h : x.value = -2 ^ 63 - 2048) :
    ¬Even x.significand := by
  rintro ⟨s, hs⟩
  have hexp : 11 ≤ x.exponent := hx.le_exponent (by linarith)
  have hstep : (2 : ℚ) ^ (11 : ℤ) = 2048 := by norm_num
  have hmag := magnitude_of_value_neg (x := x) (by linarith)
  rw [magnitude, h, hs, ← sub_add_cancel x.exponent 11, zpow_add₀ two_ne_zero,
    ← twoTo_toNat (by omega), hstep] at hmag
  have hcast : ((2 * (s * twoTo (x.exponent - 11).toNat) : ℕ) : ℚ) = (2 ^ 52 + 1 : ℕ) := by
    push_cast at hmag ⊢
    linarith
  have hodd := Nat.cast_injective hcast
  omega

/-- Less than half a step below the lower bound, or just so far, integers are rounded to it. -/
theorem Nearest.value_of_near (h : Nearest n x) (hlow : -2 ^ 63 - 1024 ≤ n) (hhigh : n < -2 ^ 63) :
    x.value = -2 ^ 63 := by
  have hlow' : (-2 ^ 63 - 1024 : ℚ) ≤ n := by exact_mod_cast hlow
  have hhigh' : (n : ℚ) < -2 ^ 63 := by exact_mod_cast hhigh
  have hle := h.value_le lowerBound_canonical (by rw [lowerBound_value]; exact hhigh'.le)
  have hge := h.le_value belowLowerBound_canonical (by rw [belowLowerBound_value]; linarith)
  rw [lowerBound_value] at hle
  rw [belowLowerBound_value] at hge
  by_contra hne
  have hbelow : x.value = -2 ^ 63 - 2048 :=
    le_antisymm (h.canonical.value_le_below (lt_of_le_of_ne hle hne)) hge
  -- the next number is not nearer; at the same distance it would have to be even
  have hdist := h.dist_le lowerBound lowerBound_canonical
  have hx : |x.value - n| = n - x.value := by
    rw [abs_sub_comm, abs_of_nonneg]
    linarith
  have hbound : |lowerBound.value - n| = -2 ^ 63 - n := by
    rw [lowerBound_value, abs_of_nonneg]
    linarith
  rw [hx, hbound, hbelow] at hdist
  have htie : (n : ℚ) = -2 ^ 63 - 1024 := by linarith
  refine h.canonical.odd_below hbelow (h.even lowerBound lowerBound_canonical ?_ ?_)
  · rw [hx, hbound, hbelow, htie]
    norm_num
  · rw [lowerBound_value]
    exact Ne.symm hne

theorem Nearest.value_of_far (h : Nearest n x) (hn : n < -2 ^ 63 - 1024) :
    x.value ≤ -2 ^ 63 - 2048 := by
  have hn' : (n : ℚ) < -2 ^ 63 - 1024 := by exact_mod_cast hn
  have hle := h.value_le lowerBound_canonical (by rw [lowerBound_value]; linarith)
  rw [lowerBound_value] at hle
  refine h.canonical.value_le_below (lt_of_le_of_ne hle fun heq => ?_)
  -- the next number below is nearer than the bound
  have hdist := h.dist_le belowLowerBound belowLowerBound_canonical
  rw [belowLowerBound_value, heq, abs_of_pos (by linarith)] at hdist
  rcases le_abs.mp hdist with h | h <;> linarith

theorem Nearest.value_of_above (h : Nearest n x) (hn : 2 ^ 63 ≤ n) : 2 ^ 63 ≤ x.value := by
  have hn' : (2 ^ 63 : ℚ) ≤ n := by exact_mod_cast hn
  have hge := h.le_value upperBound_canonical (by rw [upperBound_value]; exact hn')
  rw [upperBound_value] at hge
  exact hge

theorem Nearest.magnitude_le {negative : Bool} {q : ℚ} {y : Binary64}
    (h : Nearest (signed negative q) x) (hy : y.Canonical) (hsign : y.negative = negative)
    (hq : y.magnitude ≤ q) : y.magnitude ≤ signed negative x.value := by
  have hvalue : y.value = signed negative y.magnitude := by rw [value, hsign]
  cases negative with
  | false =>
    rw [← show y.value = y.magnitude from hvalue] at hq ⊢
    exact h.le_value hy hq
  | true =>
    rw [← neg_le_neg_iff, ← show y.value = -y.magnitude from hvalue] at hq
    rw [← neg_le_neg_iff, ← show y.value = -y.magnitude from hvalue]
    exact (neg_neg x.value).le.trans (h.value_le hy hq)

theorem ofDecimal_zero (negative : Bool) (e : ℤ) :
    ofDecimal negative 0 e = some (zero negative) := rfl

theorem ofDecimal_whole {negative : Bool} {digits k : ℕ} (hdigits : digits ≠ 0) {z : Binary64} :
    ofDecimal negative digits k = some z ↔ k ≤ maxPower ∧ ∃ x p, ofRatio negative digits 1 = some x ∧
      powerOfTen? k = some p ∧ x.times? p = some z := by
  unfold ofDecimal
  simp only [Option.bind_eq_bind, Option.bind_eq_some_iff, hdigits, if_false, Int.natCast_nonneg,
    if_true, Int.toNat_natCast]
  constructor
  · rintro ⟨x, hx, h⟩
    split at h
    · cases h
    · next hk =>
      obtain ⟨p, hp, hz⟩ := Option.bind_eq_some_iff.mp h
      exact ⟨by omega, x, p, hx, hp, hz⟩
  · rintro ⟨hk, x, p, hx, hp, hz⟩
    refine ⟨x, hx, ?_⟩
    rw [if_neg (by omega), hp]
    exact hz

theorem tenTo_cast (k : ℕ) : (tenTo k : ℚ) = 10 ^ k := by
  simp [tenTo]

theorem powerOfTen_zero : powerOfTen? 0 = some ⟨false, 2 ^ 52, -52⟩ := rfl

theorem powerOfTen_value {k : ℕ} (hk : 1 ≤ k) {p : Binary64} (hp : powerOfTen? k = some p) :
    10 ≤ p.value := by
  have hnearest := ofRatio_nearest Nat.one_pos hp
  have hten : (⟨false, 5 * 2 ^ 50, -49⟩ : Binary64).magnitude = 10 := by norm_num [magnitude]
  have hpow : (10 : ℚ) ^ 1 ≤ 10 ^ k := pow_le_pow_right₀ (by norm_num) hk
  have hle := hnearest.magnitude_le (y := ⟨false, 5 * 2 ^ 50, -49⟩)
    (canonical_mk false (by decide)) rfl
    (by rw [hten, tenTo_cast, Nat.cast_one, div_one, ← pow_one (10 : ℚ)]; exact hpow)
  rw [hten] at hle
  exact hle

theorem ofDecimal_nearest {negative : Bool} {digits : ℕ} (hdigits : digits ≠ 0) {z : Binary64}
    (h : ofDecimal negative digits (0 : ℕ) = some z) :
    ∃ x, Nearest (signed negative digits) x ∧ z.value = x.value := by
  obtain ⟨-, x, p, hx, hp, hz⟩ := (ofDecimal_whole hdigits).mp h
  have hnearest := ofRatio_nearest Nat.one_pos hx
  rw [Nat.cast_one, div_one] at hnearest
  refine ⟨x, hnearest, ?_⟩
  have hone : p.value = 1 := by
    rw [powerOfTen_zero] at hp
    cases hp
    norm_num [value, signed, magnitude]
  have hproduct := times_nearest hz
  rw [hone, mul_one] at hproduct
  exact hproduct.value_eq hnearest.canonical

theorem lt_largest {q : ℚ} (h : q ≤ 2 ^ 64) : q < 2 ^ (52 + maxExponent) := by
  have hlt : (2 : ℚ) ^ (64 : ℤ) < 2 ^ (52 + maxExponent) :=
    zpow_lt_zpow_right₀ one_lt_two (by decide)
  exact h.trans_lt hlt

theorem ofDecimal_near {digits : ℕ} (hlow : 2 ^ 63 < digits) (hhigh : digits ≤ 2 ^ 63 + 1024) :
    ∃ z, ofDecimal true digits (0 : ℕ) = some z := by
  have hhigh' : (digits : ℚ) ≤ 2 ^ 63 + 1024 := by exact_mod_cast hhigh
  have hne : digits ≠ 0 := by omega
  obtain ⟨x, hx⟩ := ofRatio_isSome hne Nat.one_pos
    (lt_largest (by rw [Nat.cast_one, div_one]; linarith)) true
  have hnearest := ofRatio_nearest Nat.one_pos hx
  have hcast : signed true (digits / (1 : ℕ)) = ((-digits : ℤ) : ℚ) := by
    rw [Nat.cast_one, div_one, Int.cast_neg, Int.cast_natCast]
    rfl
  rw [hcast] at hnearest
  have hvalue := hnearest.value_of_near (by omega) (by omega)
  have hmag : x.magnitude * (⟨false, 2 ^ 52, -52⟩ : Binary64).magnitude = 2 ^ 63 := by
    rw [magnitude_of_value_neg (by rw [hvalue]; norm_num), hvalue]
    norm_num [magnitude]
  obtain ⟨z, hz⟩ := times_isSome (x := x) (y := ⟨false, 2 ^ 52, -52⟩) (by rw [hmag]; norm_num)
    (lt_largest (by rw [hmag]; norm_num))
  exact ⟨z, (ofDecimal_whole hne).mpr ⟨Nat.zero_le _, x, _, hx, powerOfTen_zero, hz⟩⟩

theorem ofDecimal_large {negative : Bool} {digits k : ℕ} (hdigits : 2 ^ 60 ≤ digits) (hk : 1 ≤ k)
    {z : Binary64} (h : ofDecimal negative digits k = some z) :
    10 * 2 ^ 60 ≤ signed negative z.value := by
  obtain ⟨-, x, p, hx, hp, hz⟩ := (ofDecimal_whole (by omega)).mp h
  have hten := powerOfTen_value hk hp
  have hdigits' : (2 ^ 60 : ℚ) ≤ digits := by exact_mod_cast hdigits
  have hsixty : (⟨negative, 2 ^ 52, 8⟩ : Binary64).magnitude = 2 ^ 60 := by norm_num [magnitude]
  have hx' := (ofRatio_nearest Nat.one_pos hx).magnitude_le (y := ⟨negative, 2 ^ 52, 8⟩)
    (canonical_mk negative (by decide)) rfl
    (by rw [hsixty, Nat.cast_one, div_one]; exact hdigits')
  rw [hsixty] at hx'
  have hproduct : x.value * p.value = signed negative (signed negative x.value * p.value) := by
    cases negative <;> simp [signed]
  have hlarge : (⟨negative, 5 * 2 ^ 50, 11⟩ : Binary64).magnitude = 10 * 2 ^ 60 := by
    norm_num [magnitude]
  have hz' := (hproduct ▸ times_nearest hz).magnitude_le (y := ⟨negative, 5 * 2 ^ 50, 11⟩)
    (canonical_mk negative (by decide)) rfl
    (by rw [hlarge, mul_comm]; exact mul_le_mul hx' hten (by norm_num) (le_trans (by norm_num) hx'))
  rw [hlarge] at hz'
  exact hz'

end Binary64

namespace Json.Number

/-- The digits of an integer, behind a minus sign if it is negative. -/
def integerLiteral (negative : Bool) (ds : List Char) : List Char :=
  if negative then '-' :: ds else ds

/-- What is kept of an integer: all of it within 64 bits, signed or unsigned, and else the nearest
floating point number. -/
def Keeps (n : ℤ) : Number → Prop
  | .whole m => m = n ∧ leastWhole ≤ n ∧ n ≤ greatestWhole
  | .float x => ¬(leastWhole ≤ n ∧ n ≤ greatestWhole) ∧ Binary64.Nearest n x

def follow (n : ℕ) (ds : List Char) : ℕ := ds.foldl (fun n c => 10 * n + digitValue c) n

theorem follow_gather (n : ℕ) (ds : List Char) :
    follow (gather n ds).1 (gather n ds).2 = follow n ds := by
  induction ds generalizing n with
  | nil => rfl
  | cons c rest ih =>
    rw [gather]
    split
    · exact ih _
    · rfl

theorem gather_le {n : ℕ} (hn : n ≤ greatestWhole.toNat) (ds : List Char) :
    (gather n ds).1 ≤ greatestWhole.toNat := by
  induction ds generalizing n with
  | nil => exact hn
  | cons c rest ih =>
    rw [gather]
    split
    · next h => exact ih h
    · exact hn

theorem gather_stops (n : ℕ) (ds : List Char) :
    ∀ c ∈ (gather n ds).2.head?, greatestWhole.toNat < 10 * (gather n ds).1 + digitValue c := by
  induction ds generalizing n with
  | nil => exact fun _ h => by cases h
  | cons c rest ih =>
    rw [gather]
    split
    · exact ih _
    · next h =>
      rintro _ ⟨rfl⟩
      exact not_le.mp h

theorem mem_of_gather {n : ℕ} {c : Char} {ds : List Char} (h : c ∈ (gather n ds).2) : c ∈ ds := by
  induction ds generalizing n with
  | nil => exact h
  | cons d rest ih =>
    rw [gather] at h
    split at h
    · exact List.mem_cons_of_mem _ (ih h)
    · exact h

theorem mul_pow_le_follow (n : ℕ) (ds : List Char) : n * 10 ^ ds.length ≤ follow n ds := by
  induction ds generalizing n with
  | nil => simp [follow]
  | cons c rest ih =>
    calc n * 10 ^ (c :: rest).length
        = 10 * n * 10 ^ rest.length := by rw [List.length_cons, pow_succ]; ring
      _ ≤ (10 * n + digitValue c) * 10 ^ rest.length := Nat.mul_le_mul_right _ (Nat.le_add_right _ _)
      _ ≤ follow n (c :: rest) := ih _

variable {negative : Bool} {ds : List Char}

theorem digit_bounds {c : Char} (h : c.isDigit = true) : 48 ≤ c.toNat ∧ c.toNat ≤ 57 :=
  Char.isDigit_iff_toNat.mp h

theorem digitValue_le {c : Char} (h : c.isDigit = true) : digitValue c ≤ 9 :=
  Nat.sub_le_of_le_add (digit_bounds h).2

theorem gather_of_le (h : natOfDigits ds ≤ greatestWhole.toNat) :
    gather 0 ds = (natOfDigits ds, []) := by
  obtain ⟨⟨m, rest⟩, hg⟩ : ∃ g, gather 0 ds = g := ⟨_, rfl⟩
  have hfollow := follow_gather 0 ds
  have hstops := gather_stops 0 ds
  rw [hg] at hfollow hstops ⊢
  cases rest with
  | nil => exact congrArg (·, []) hfollow
  | cons c rest =>
    have hmax : greatestWhole.toNat < 10 * m + digitValue c := hstops c rfl
    have hle : 10 * m + digitValue c ≤ natOfDigits ds :=
      calc 10 * m + digitValue c
          ≤ (10 * m + digitValue c) * 10 ^ rest.length := Nat.le_mul_of_pos_right _ (by positivity)
        _ ≤ follow (10 * m + digitValue c) rest := mul_pow_le_follow _ _
        _ = natOfDigits ds := hfollow
    omega

/-- Of one that does not fit, a number of 61 bits or more is gathered and a digit is left over. -/
theorem gather_of_lt (hds : ∀ c ∈ ds, c.isDigit = true) (h : greatestWhole.toNat < natOfDigits ds) :
    2 ^ 60 ≤ (gather 0 ds).1 ∧ 1 ≤ (gather 0 ds).2.length := by
  have hfollow := follow_gather 0 ds
  have hstops := gather_stops 0 ds
  have hle := gather_le (Nat.zero_le _) ds
  have hmem : ∀ c ∈ (gather 0 ds).2, c.isDigit = true := fun c hc => hds c (mem_of_gather hc)
  cases hrest : (gather 0 ds).2 with
  | nil =>
    rw [hrest] at hfollow
    have hall : (gather 0 ds).1 = natOfDigits ds := hfollow
    omega
  | cons c rest =>
    rw [hrest] at hstops hmem
    have hdigit := digitValue_le (hmem c List.mem_cons_self)
    have hmax : greatestWhole.toNat < 10 * (gather 0 ds).1 + digitValue c := hstops c rfl
    have hgreatest : greatestWhole.toNat = 18446744073709551615 := rfl
    refine ⟨by omega, ?_⟩
    rw [List.length_cons]
    omega

theorem intOfDigits_literal (hds : ∀ c ∈ ds, c.isDigit = true) :
    intOfDigits (integerLiteral negative ds) =
      if negative then -(natOfDigits ds : ℤ) else natOfDigits ds := by
  cases negative
  · cases ds with
    | nil => rfl
    | cons c rest =>
      have hc := hds c List.mem_cons_self
      have hminus : c ≠ '-' := by
        rintro rfl
        cases hc
      have hplus : c ≠ '+' := by
        rintro rfl
        cases hc
      unfold intOfDigits integerLiteral
      split <;> simp_all
  · rfl

theorem head_literal (hds : ∀ c ∈ ds, c.isDigit = true) :
    (integerLiteral negative ds).head? = some '-' ↔ negative = true := by
  cases negative with
  | true => exact iff_of_true rfl rfl
  | false =>
    refine iff_of_false (fun h => ?_) Bool.false_ne_true
    have hdigit := hds '-' (List.mem_of_head? h)
    cases hdigit

theorem ofLiteral_digits (hds : ∀ c ∈ ds, c.isDigit = true) {n : ℤ}
    (hn : intOfDigits (integerLiteral negative ds) = n) :
    ofLiteral? (integerLiteral negative ds) =
      if leastWhole ≤ n ∧ n ≤ greatestWhole ∧ ¬(negative = true ∧ n = 0) then some (.whole n)
      else (Binary64.ofDecimal negative (gather 0 ds).1 (gather 0 ds).2.length).map .float := by
  have hbody : (if negative = true then (integerLiteral negative ds).tail
      else integerLiteral negative ds) = ds := by
    cases negative <;> rfl
  have htake : ds.takeWhile Char.isDigit = ds := List.takeWhile_eq_self_iff.mpr hds
  have hdrop : ds.dropWhile Char.isDigit = [] := List.dropWhile_eq_nil_iff.mpr hds
  have hall : ds.all Char.isDigit = true := List.all_eq_true.mpr hds
  simp only [ofLiteral?, head_literal hds, hbody, htake, hdrop, hall, hn, gather, true_and]
  simp

/-- What numbers that stand for an integer are worth: itself within 64 bits, the lower bound just
below it, and beyond that and above nothing of 64 bits. -/
structure StandsFor (n : ℤ) (q : ℚ) : Prop where
  kept : leastWhole ≤ n → n ≤ greatestWhole → q = n
  near : -2 ^ 63 - 1024 ≤ n → n < -2 ^ 63 → q = -2 ^ 63
  far : n < -2 ^ 63 - 1024 → q ≤ -2 ^ 63 - 2048
  above : 2 ^ 63 ≤ n → 2 ^ 63 ≤ q

theorem leastWhole_eq : leastWhole = -2 ^ 63 := rfl

theorem greatestWhole_eq : greatestWhole = 2 ^ 64 - 1 := rfl

theorem standsFor_self {n : ℤ} (hlow : leastWhole ≤ n) : StandsFor n n := by
  rw [leastWhole_eq] at hlow
  refine ⟨fun _ _ => rfl, ?_, ?_, fun h => by exact_mod_cast h⟩ <;>
  · intros
    omega

theorem standsFor_of_nearest {n : ℤ} (hn : ¬(leastWhole ≤ n ∧ n ≤ greatestWhole))
    {x : Binary64} (hx : Binary64.Nearest n x) : StandsFor n x.value :=
  ⟨fun hlow hhigh => absurd ⟨hlow, hhigh⟩ hn, hx.value_of_near, hx.value_of_far, hx.value_of_above⟩

theorem Keeps.standsFor {n : ℤ} {k : Number} (h : k.Keeps n) : StandsFor n k.value := by
  cases k with
  | whole m =>
    obtain ⟨rfl, hlow, -⟩ := h
    exact standsFor_self hlow
  | float x => exact standsFor_of_nearest h.1 h.2

theorem standsFor_of_large {n : ℤ} {m : ℕ} (hm : greatestWhole.toNat < m)
    (hn : n = if negative then -(m : ℤ) else m) {q : ℚ}
    (hq : 10 * 2 ^ 60 ≤ Binary64.signed negative q) : StandsFor n q := by
  have hmax : greatestWhole.toNat = 2 ^ 64 - 1 := rfl
  rw [hmax] at hm
  cases negative with
  | false =>
    rw [if_neg Bool.false_ne_true] at hn
    have hq' : 10 * 2 ^ 60 ≤ q := hq
    refine ⟨?_, ?_, ?_, fun _ => by linarith⟩
    · intro _ hle
      rw [greatestWhole_eq] at hle
      omega
    · omega
    · omega
  | true =>
    rw [if_pos rfl] at hn
    have hq' : 10 * 2 ^ 60 ≤ -q := hq
    refine ⟨?_, ?_, fun _ => by linarith, ?_⟩
    · intro hle
      rw [leastWhole_eq] at hle
      omega
    · omega
    · omega

theorem standsFor_of_digits (hds : ∀ c ∈ ds, c.isDigit = true) {n : ℤ}
    (hn : intOfDigits (integerLiteral negative ds) = n) {k : Number}
    (hk : ofLiteral? (integerLiteral negative ds) = some k) : StandsFor n k.value := by
  have hvalue : n = if negative then -(natOfDigits ds : ℤ) else natOfDigits ds := by
    rw [← hn, intOfDigits_literal hds]
  rw [ofLiteral_digits hds hn] at hk
  split at hk
  · next h =>
    cases hk
    exact standsFor_self h.1
  · next h =>
    obtain ⟨z, hz, rfl⟩ := Option.map_eq_some_iff.mp hk
    rcases Nat.lt_or_ge greatestWhole.toNat (natOfDigits ds) with hlt | hle
    · obtain ⟨hdigits, hdropped⟩ := gather_of_lt hds hlt
      exact standsFor_of_large hlt hvalue (Binary64.ofDecimal_large hdigits hdropped hz)
    · rw [gather_of_le hle] at hz
      by_cases hzero : natOfDigits ds = 0
      · -- a zero is read as a floating point number behind a minus sign
        rw [hzero] at hz hvalue
        cases hz
        have hn0 : n = 0 := by cases negative <;> exact hvalue
        subst hn0
        rw [Number.value, Binary64.zero_value, ← Int.cast_zero]
        exact standsFor_self (by decide)
      · have hrange : ¬(leastWhole ≤ n ∧ n ≤ greatestWhole) := by
          rintro ⟨hlow, hhigh⟩
          refine h ⟨hlow, hhigh, ?_⟩
          rintro ⟨hsign, hn0⟩
          rw [if_pos hsign] at hvalue
          omega
        obtain ⟨x, hx, hzx⟩ := Binary64.ofDecimal_nearest hzero hz
        have hcast : Binary64.signed negative (natOfDigits ds) = n := by
          rw [hvalue]
          cases negative <;> simp [Binary64.signed]
        rw [Number.value, hzx]
        exact standsFor_of_nearest hrange (hcast ▸ hx)

theorem exists_ofLiteral (hds : ∀ c ∈ ds, c.isDigit = true) {n : ℤ}
    (hn : intOfDigits (integerLiteral negative ds) = n) (hlow : -2 ^ 63 - 1024 ≤ n)
    (hhigh : n < 2 ^ 63) : ∃ k, ofLiteral? (integerLiteral negative ds) = some k := by
  have hvalue : n = if negative then -(natOfDigits ds : ℤ) else natOfDigits ds := by
    rw [← hn, intOfDigits_literal hds]
  have hmax : greatestWhole.toNat = 2 ^ 64 - 1 := rfl
  have hle : natOfDigits ds ≤ greatestWhole.toNat := by
    rw [hmax]
    split at hvalue <;> omega
  rw [ofLiteral_digits hds hn, gather_of_le hle]
  split
  · exact ⟨_, rfl⟩
  · next h =>
    suffices hz : ∃ z, Binary64.ofDecimal negative (natOfDigits ds) (0 : ℕ) = some z by
      obtain ⟨z, hz⟩ := hz
      exact ⟨.float z, Option.map_eq_some_iff.mpr ⟨z, hz, rfl⟩⟩
    by_cases hzero : natOfDigits ds = 0
    · rw [hzero]
      exact ⟨_, Binary64.ofDecimal_zero _ _⟩
    · rw [leastWhole_eq, greatestWhole_eq] at h
      cases negative with
      | false =>
        rw [if_neg Bool.false_ne_true] at hvalue
        omega
      | true =>
        rw [if_pos rfl] at hvalue
        exact Binary64.ofDecimal_near (by omega) (by omega)

end Json.Number

namespace Validation

open Number

/-- An integer literal of any length, read here or kept by any reader that rounds to the nearest
number what has no 64 bits: one of a signed integer is accepted as it is written, one beyond is
refused, with one exception. Below the lower bound, by no more than 1024, it is accepted as the
bound. -/
theorem integer_literal_accepted (path : String) {negative : Bool} {ds : List Char}
    (hds : ∀ c ∈ ds, c.isDigit = true) {n : ℤ}
    (hn : intOfDigits (integerLiteral negative ds) = n) :
    (-2 ^ 63 - 1024 ≤ n → n < 2 ^ 63 → ∃ k, ofLiteral? (integerLiteral negative ds) = some k) ∧
    ∀ k, (ofLiteral? (integerLiteral negative ds) = some k ∨ k.Keeps n) →
      (-2 ^ 63 ≤ n → n < 2 ^ 63 → validateAt path .integer (.number k) = .ok (.integer n)) ∧
      (-2 ^ 63 - 1024 ≤ n → n < -2 ^ 63 →
        validateAt path .integer (.number k) = .ok (.integer (-2 ^ 63))) ∧
      (n < -2 ^ 63 - 1024 ∨ 2 ^ 63 ≤ n →
        ∃ message, validateAt path .integer (.number k) = .error ⟨path, message⟩) := by
  refine ⟨exists_ofLiteral hds hn, fun k hk => ?_⟩
  have hvalue : StandsFor n k.value := hk.elim (standsFor_of_digits hds hn) Keeps.standsFor
  refine ⟨?_, ?_, ?_⟩
  · intro hlow hhigh
    rw [validateAt_number_ok, hvalue.kept hlow (by rw [greatestWhole_eq]; omega),
      towardZero_intCast]
    exact ⟨rfl, hlow, hhigh⟩
  · intro hlow hhigh
    have hbound : k.value = ((-2 ^ 63 : ℤ) : ℚ) := by
      rw [hvalue.near hlow hhigh]
      norm_num
    rw [validateAt_number_ok, hbound, towardZero_intCast]
    norm_num
  · intro hout
    rw [validateAt_number_error]
    rcases hout with hfar | habove
    · have hle := hvalue.far hfar
      exact .inl (by linarith)
    · exact .inr (hvalue.above habove)

/-- The literal of the first integer below the bound. -/
theorem first_below_accepted :
    let ds := "9223372036854775809".toList
    (∀ c ∈ ds, c.isDigit = true) ∧
    intOfDigits (integerLiteral true ds) = -9223372036854775809 ∧
    ∃ k, ofLiteral? (integerLiteral true ds) = some k ∧
      validate .integer (.number k) = .ok (.integer (-9223372036854775808)) := by
  intro ds
  have hds : ∀ c ∈ ds, c.isDigit = true := List.all_eq_true.mp rfl
  have hn : intOfDigits (integerLiteral true ds) = -9223372036854775809 := by decide
  obtain ⟨hread, haccepted⟩ := integer_literal_accepted rootPath hds hn
  obtain ⟨k, hk⟩ := hread (by decide) (by decide)
  exact ⟨hds, hn, k, hk, (haccepted k (.inl hk)).2.1 (by decide) (by decide)⟩

/-- So not every integer literal that is accepted is accepted as what it writes. -/
theorem literal_changed :
    ¬∀ (ds : List Char) (negative : Bool) (k : Number) (m : ℤ), (∀ c ∈ ds, c.isDigit = true) →
      ofLiteral? (integerLiteral negative ds) = some k →
      validate .integer (.number k) = .ok (.integer m) →
      m = intOfDigits (integerLiteral negative ds) := by
  intro h
  have hk : ofLiteral? (integerLiteral true "9223372036854775809".toList) =
      some (.float Binary64.lowerBound) := by decide +kernel
  have hm : validate .integer (.number (.float Binary64.lowerBound)) =
      .ok (.integer (-9223372036854775808)) := by rfl
  have heq := h _ true _ _ (List.all_eq_true.mp rfl) hk hm
  revert heq
  decide

end Validation

end Covenant
