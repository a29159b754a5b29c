import Covenant.Proofs.Conformance
import Mathlib.Algebra.Order.Field.Power
import Mathlib.Data.Rat.Floor
import Mathlib.Tactic.Linarith
import Mathlib.Tactic.Positivity

namespace Covenant

/-- The integer next to the number on the side of zero. -/
def towardZero (q : ℚ) : ℤ := if q < 0 then ⌈q⌉ else ⌊q⌋

theorem towardZero_neg (q : ℚ) : towardZero (-q) = -towardZero q := by
  unfold towardZero
  rcases lt_trichotomy q 0 with h | rfl | h
  · rw [if_neg (by linarith), if_pos h, Int.floor_neg]
  · simp
  · rw [if_pos (by linarith), if_neg (by linarith), Int.ceil_neg]

theorem towardZero_intCast (n : ℤ) : towardZero n = n := by
  simp [towardZero]

theorem towardZero_of_nonneg {q : ℚ} (h : 0 ≤ q) : towardZero q = ⌊q⌋ := if_neg (not_lt.mpr h)

theorem le_towardZero {n : ℤ} (hn : 0 < n) {q : ℚ} : n ≤ towardZero q ↔ (n : ℚ) ≤ q := by
  have hn' : (0 : ℚ) < n := by exact_mod_cast hn
  unfold towardZero
  split
  · next h =>
    have hceil : ⌈q⌉ ≤ 0 := Int.ceil_le.mpr (by push_cast; linarith)
    constructor
    · intro hle
      omega
    · intro hle
      linarith
  · exact Int.le_floor

theorem towardZero_le {n : ℤ} (hn : n < 0) {q : ℚ} : towardZero q ≤ n ↔ q ≤ (n : ℚ) := by
  have h := le_towardZero (n := -n) (by omega) (q := -q)
  rw [towardZero_neg, neg_le_neg_iff] at h
  rw [h]
  push_cast
  exact neg_le_neg_iff

theorem towardZero_int64 {q : ℚ} :
    (-2 ^ 63 ≤ towardZero q ∧ towardZero q < 2 ^ 63) ↔ -2 ^ 63 - 1 < q ∧ q < 2 ^ 63 := by
  have hlow : towardZero q ≤ -2 ^ 63 - 1 ↔ q ≤ -2 ^ 63 - 1 := by
    rw [towardZero_le (by norm_num)]
    norm_num
  have hhigh : 2 ^ 63 ≤ towardZero q ↔ 2 ^ 63 ≤ q := by
    rw [le_towardZero (by norm_num)]
    norm_num
  refine and_congr ?_ ?_
  · rw [← not_le (a := q), ← hlow]
    omega
  · rw [← not_le, hhigh, not_le]

namespace Binary64

def magnitude (x : Binary64) : ℚ := x.significand * 2 ^ x.exponent

def signed (negative : Bool) (q : ℚ) : ℚ := if negative then -q else q

theorem signed_zero (negative : Bool) : signed negative 0 = 0 := by
  cases negative
  · rfl
  · exact neg_zero

/-- The number, exactly. -/
def value (x : Binary64) : ℚ := signed x.negative x.magnitude

theorem magnitude_nonneg (x : Binary64) : 0 ≤ x.magnitude := by
  unfold magnitude
  positivity

theorem twoTo_toNat {e : ℤ} (h : 0 ≤ e) : (twoTo e.toNat : ℚ) = 2 ^ e := by
  obtain ⟨k, rfl⟩ := Int.eq_ofNat_of_zero_le h
  simp [twoTo]

theorem twoTo_pos (e : ℕ) : 0 < twoTo e := Nat.two_pow_pos e

theorem twoTo_div_twoTo (e : ℤ) : (twoTo e.toNat : ℚ) / twoTo (-e).toNat = 2 ^ e := by
  have hone : twoTo 0 = 1 := rfl
  rcases le_total 0 e with h | h
  · rw [twoTo_toNat h, Int.toNat_of_nonpos (by omega), hone, Nat.cast_one, div_one]
  · rw [twoTo_toNat (e := -e) (by omega), Int.toNat_of_nonpos h, hone, Nat.cast_one, zpow_neg,
      one_div, inv_inv]

theorem ratio_eq (x : Binary64) : (x.ratio.1 : ℚ) / x.ratio.2 = x.magnitude := by
  rw [ratio, magnitude, Nat.cast_mul, mul_div_assoc, twoTo_div_twoTo]

theorem floor_magnitude (x : Binary64) : ⌊x.magnitude⌋ = (x.ratio.1 / x.ratio.2 : ℕ) := by
  rw [← ratio_eq, Rat.floor_natCast_div_natCast, Int.natCast_div]

theorem steps_mul (x : Binary64) {e : ℤ} (h : e ≤ x.exponent) :
    (x.steps e : ℚ) * 2 ^ e = x.value := by
  have hpow : (2 : ℚ) ^ (x.exponent - e) * 2 ^ e = 2 ^ x.exponent := by
    rw [← zpow_add₀ two_ne_zero, sub_add_cancel]
  have hmag : (x.significand * twoTo (x.exponent - e).toNat : ℚ) * 2 ^ e = x.magnitude := by
    rw [twoTo_toNat (by omega), mul_assoc, hpow, magnitude]
  unfold steps value signed
  split
  · push_cast
    rw [neg_mul, hmag]
  · push_cast
    exact hmag

theorem le_iff {x y : Binary64} : x.le y = true ↔ x.value ≤ y.value := by
  have hpos : (0 : ℚ) < 2 ^ min x.exponent y.exponent := by positivity
  rw [← steps_mul x (min_le_left _ _), ← steps_mul y (min_le_right _ _), le, decide_eq_true_eq,
    mul_le_mul_iff_of_pos_right hpos, Int.cast_le]

theorem lt_iff {x y : Binary64} : x.lt y = true ↔ x.value < y.value := by
  rw [lt, Bool.not_eq_true', ← Bool.not_eq_true, le_iff, not_le]

theorem truncate_eq (x : Binary64) : x.truncate = towardZero x.value := by
  have hmag : towardZero x.magnitude = (x.ratio.1 / x.ratio.2 : ℕ) := by
    rw [towardZero_of_nonneg x.magnitude_nonneg, floor_magnitude]
  have htruncate : x.truncate = if x.negative then -((x.ratio.1 / x.ratio.2 : ℕ) : ℤ)
      else (x.ratio.1 / x.ratio.2 : ℕ) := by
    unfold truncate ratio
    cases x.exponent <;> simp [twoTo]
  rw [htruncate, value, signed]
  split
  · rw [towardZero_neg, hmag]
  · rw [hmag]

theorem trunc_magnitude (x : Binary64) : x.trunc.magnitude = ⌊x.magnitude⌋ := by
  have hunit : (twoTo (-x.exponent).toNat : ℚ) * 2 ^ x.exponent = twoTo x.exponent.toNat := by
    have hpos : (0 : ℚ) < twoTo (-x.exponent).toNat := by exact_mod_cast twoTo_pos _
    rw [← twoTo_div_twoTo, mul_div_cancel₀ _ hpos.ne']
  -- a number with a fraction is not scaled up, so the order of the two operations does not matter
  have hscale : x.significand / twoTo (-x.exponent).toNat * twoTo x.exponent.toNat =
      x.significand * twoTo x.exponent.toNat / twoTo (-x.exponent).toNat := by
    have hone : twoTo 0 = 1 := rfl
    rcases le_total 0 x.exponent with h | h
    · rw [Int.toNat_of_nonpos (by omega : -x.exponent ≤ 0), hone, Nat.div_one, Nat.div_one]
    · rw [Int.toNat_of_nonpos h, hone, mul_one, mul_one]
  calc x.trunc.magnitude
      = (x.significand / twoTo (-x.exponent).toNat : ℕ) *
          ((twoTo (-x.exponent).toNat : ℚ) * 2 ^ x.exponent) := by
        rw [← mul_assoc, ← Nat.cast_mul]
        rfl
    _ = ((x.significand / twoTo (-x.exponent).toNat * twoTo x.exponent.toNat : ℕ) : ℚ) := by
        rw [hunit, Nat.cast_mul]
    _ = ⌊x.magnitude⌋ := by
        rw [hscale, floor_magnitude, Int.cast_natCast]
        rfl

theorem trunc_value (x : Binary64) : x.trunc.value = x.truncate := by
  rw [truncate_eq, value, value, signed, signed]
  change (if x.negative then _ else _) = _
  split
  · rw [towardZero_neg, towardZero_of_nonneg x.magnitude_nonneg, trunc_magnitude, Int.cast_neg]
  · rw [towardZero_of_nonneg x.magnitude_nonneg, trunc_magnitude]

theorem leastInt64_eq : leastInt64 = -2 ^ 63 := rfl

theorem greatestInt64_eq : greatestInt64 = 2 ^ 63 - 1 := rfl

theorem ofInt_leastInt64 : ofInt? leastInt64 = some ⟨true, 2 ^ 52, 11⟩ := rfl

theorem ofInt_greatestInt64 : ofInt? greatestInt64 = some ⟨false, 2 ^ 52, 11⟩ := rfl

theorem toInt64_eq_some {x : Binary64} {n : ℤ} :
    x.toInt64? = some n ↔ towardZero x.value = n ∧ -2 ^ 63 ≤ n ∧ n < 2 ^ 63 := by
  have hlow : (⟨true, 2 ^ 52, 11⟩ : Binary64).value = ((-2 ^ 63 : ℤ) : ℚ) := by
    norm_num [value, signed, magnitude]
  have hhigh : (⟨false, 2 ^ 52, 11⟩ : Binary64).value = ((2 ^ 63 : ℤ) : ℚ) := by
    norm_num [value, signed, magnitude]
  have hwhole : x.trunc.truncate = x.truncate := by
    rw [truncate_eq x.trunc, trunc_value, towardZero_intCast]
  have htest : ((⟨true, 2 ^ 52, 11⟩ : Binary64).le x.trunc &&
      x.trunc.lt ⟨false, 2 ^ 52, 11⟩) = true ↔ -2 ^ 63 ≤ x.truncate ∧ x.truncate < 2 ^ 63 := by
    rw [Bool.and_eq_true, le_iff, lt_iff, hlow, hhigh, trunc_value, Int.cast_le, Int.cast_lt]
  rw [toInt64?, ofInt_leastInt64, ofInt_greatestInt64, ← truncate_eq]
  simp only [Option.bind_eq_bind, Option.bind_some, htest, hwhole]
  split
  · next h =>
    have hsaturate : saturate x.truncate = x.truncate := by
      rw [saturate, leastInt64_eq, greatestInt64_eq]
      omega
    rw [hsaturate, Option.some_inj]
    constructor
    · rintro rfl
      exact ⟨rfl, h⟩
    · exact And.left
  · next h =>
    constructor
    · intro hn
      cases hn
    · rintro ⟨rfl, hn⟩
      exact absurd hn h

example : (⟨true, 2 ^ 52, 11⟩ : Binary64).toInt64? = some (-2 ^ 63) := rfl

example : (⟨false, 2 ^ 52, 11⟩ : Binary64).toInt64? = none := rfl

end Binary64

namespace Json

/-- The number that is held, exactly. -/
def Number.value : Number → ℚ
  | .whole n => n
  | .float x => x.value

end Json

namespace Validation

open Json

theorem fitsInt64_bounds {n : ℤ} : Text.fitsInt64 n = true ↔ -2 ^ 63 ≤ n ∧ n < 2 ^ 63 := by
  rw [fitsInt64_iff, Binary64.leastInt64_eq, Binary64.greatestInt64_eq]
  omega

theorem coerceInteger_number {k : Number} {n : ℤ} :
    coerceInteger (.number k) = .ok n ↔ towardZero k.value = n ∧ -2 ^ 63 ≤ n ∧ n < 2 ^ 63 := by
  cases k with
  | whole m =>
    rw [Number.value, towardZero_intCast, coerceInteger]
    split
    · next h =>
      rw [Except.ok.injEq]
      constructor
      · rintro rfl
        exact ⟨rfl, fitsInt64_bounds.mp h⟩
      · exact And.left
    · next h =>
      constructor
      · intro hn
        cases hn
      · rintro ⟨rfl, hn⟩
        exact absurd (fitsInt64_bounds.mpr hn) h
  | float x =>
    rw [Number.value, ← Binary64.toInt64_eq_some, coerceInteger]
    cases x.toInt64? <;> simp

theorem validateAt_integer_ok {path : String} {v : Value} {n : ℤ} :
    validateAt path .integer v = .ok (.integer n) ↔ coerceInteger v = .ok n := by
  rw [validateAt]
  cases coerceInteger v <;> simp

theorem validateAt_integer_error {path : String} {v : Value} :
    (∃ message, validateAt path .integer v = .error ⟨path, message⟩) ↔
      ∀ n, coerceInteger v ≠ .ok n := by
  rw [validateAt]
  cases coerceInteger v <;> simp

theorem validateAt_number_ok {path : String} {k : Number} {n : ℤ} :
    validateAt path .integer (.number k) = .ok (.integer n) ↔
      towardZero k.value = n ∧ -2 ^ 63 ≤ n ∧ n < 2 ^ 63 := by
  rw [validateAt_integer_ok, coerceInteger_number]

theorem validateAt_number_error {path : String} {k : Number} :
    (∃ message, validateAt path .integer (.number k) = .error ⟨path, message⟩) ↔
      k.value ≤ -2 ^ 63 - 1 ∨ 2 ^ 63 ≤ k.value := by
  rw [validateAt_integer_error, ← not_lt, ← not_lt, ← not_and_or, ← towardZero_int64]
  simp only [ne_eq, coerceInteger_number]
  constructor
  · intro h hfit
    exact h _ ⟨rfl, hfit⟩
  · rintro h n ⟨rfl, hfit⟩
    exact h hfit

/-- A number comes to an integer just if its value, cut off on the side of zero, is that integer and
has 64 bits. So every number above `-2 ^ 63 - 1` and below `2 ^ 63` is accepted as what stands before
its point, and all others are refused where they stand. -/
theorem number_cut_off (path : String) (k : Number) :
    (∀ n, validateAt path .integer (.number k) = .ok (.integer n) ↔
      towardZero k.value = n ∧ -2 ^ 63 ≤ n ∧ n ≤ 2 ^ 63 - 1) ∧
    (validateAt path .integer (.number k) = .ok (.integer (towardZero k.value)) ↔
      -2 ^ 63 - 1 < k.value ∧ k.value < 2 ^ 63) ∧
    ((∃ message, validateAt path .integer (.number k) = .error ⟨path, message⟩) ↔
      k.value ≤ -2 ^ 63 - 1 ∨ 2 ^ 63 ≤ k.value) := by
  refine ⟨?_, ?_, validateAt_number_error⟩
  · intro n
    rw [validateAt_number_ok, Int.le_sub_one_iff]
  · rw [validateAt_number_ok, towardZero_int64, and_iff_right rfl]

end Validation

end Covenant
