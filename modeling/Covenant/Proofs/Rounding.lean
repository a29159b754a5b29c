import Covenant.Proofs.ExactValue
import Mathlib.Algebra.Order.Field.Basic
import Mathlib.Algebra.Order.AbsoluteValue.Basic
import Mathlib.Tactic.FieldSimp
import Mathlib.Tactic.NormNum
import Mathlib.Tactic.Ring

namespace Covenant.Binary64

/-- The numbers of the format, each in one form: a significand of 53 bits, or the least exponent. -/
structure Canonical (x : Binary64) : Prop where
  significand_lt : x.significand < 2 ^ 53
  normal : 2 ^ 52 ≤ x.significand ∨ x.exponent = minExponent
  minExponent_le : minExponent ≤ x.exponent
  le_maxExponent : x.exponent ≤ maxExponent

/-- The number of the format for a rational number: no other is nearer, and one with an odd
significand has no other at its distance. -/
structure Nearest (q : ℚ) (x : Binary64) : Prop where
  canonical : x.Canonical
  dist_le : ∀ y : Binary64, y.Canonical → |x.value - q| ≤ |y.value - q|
  even : ∀ y : Binary64, y.Canonical → |x.value - q| = |y.value - q| → y.value ≠ x.value →
    Even x.significand

namespace Nearest

variable {q : ℚ} {x y : Binary64}

theorem le_value (h : Nearest q x) (hy : y.Canonical) (hq : y.value ≤ q) : y.value ≤ x.value := by
  by_contra! hlt
  have hdist := h.dist_le y hy
  rw [abs_of_nonpos (by linarith), abs_of_nonpos (by linarith)] at hdist
  linarith

theorem value_le (h : Nearest q x) (hy : y.Canonical) (hq : q ≤ y.value) : x.value ≤ y.value := by
  by_contra! hlt
  have hdist := h.dist_le y hy
  rw [abs_of_nonneg (by linarith), abs_of_nonneg (by linarith)] at hdist
  linarith

theorem value_eq (h : Nearest y.value x) (hy : y.Canonical) : x.value = y.value :=
  le_antisymm (h.value_le hy le_rfl) (h.le_value hy le_rfl)

end Nearest

theorem roundQuotient_dist {num den : ℕ} (hden : 0 < den) :
    |(roundQuotient num den : ℚ) - num / den| ≤ 1 / 2 ∧
    (|(roundQuotient num den : ℚ) - num / den| = 1 / 2 → Even (roundQuotient num den)) := by
  have hpos : (0 : ℚ) < den := by exact_mod_cast hden
  have hsplit : (num : ℚ) / den = (num / den : ℕ) + (num % den : ℕ) / den := by
    have h := congrArg (Nat.cast : ℕ → ℚ) (Nat.div_add_mod num den)
    push_cast at h
    rw [← h]
    field_simp
  have hrest : (0 : ℚ) ≤ (num % den : ℕ) / den := by positivity
  have hrest' : ((num % den : ℕ) : ℚ) / den < 1 := by
    rw [div_lt_one hpos]
    exact_mod_cast Nat.mod_lt num hden
  have hover : den < 2 * (num % den) ↔ 1 / 2 < ((num % den : ℕ) : ℚ) / den := by
    rw [lt_div_iff₀ hpos, ← Nat.cast_lt (α := ℚ)]
    push_cast
    constructor <;> intro h <;> linarith
  have htie : den = 2 * (num % den) ↔ 1 / 2 = ((num % den : ℕ) : ℚ) / den := by
    rw [eq_div_iff hpos.ne', ← Nat.cast_inj (R := ℚ)]
    push_cast
    constructor <;> intro h <;> linarith
  unfold roundQuotient
  dsimp only
  rw [hsplit]
  split
  · next h =>
    rw [hover, htie] at h
    push_cast
    rw [add_sub_add_left_eq_sub, abs_of_pos (by linarith)]
    constructor
    · rcases h with h | ⟨h, -⟩ <;> linarith
    · intro heq
      rcases h with h | ⟨-, h⟩
      · linarith
      · exact Nat.even_add_one.mpr (Nat.not_even_iff_odd.mpr (Nat.odd_iff.mpr h))
  · next h =>
    rw [hover, htie, not_or, not_and, not_lt] at h
    rw [sub_add_cancel_left, abs_neg, abs_of_nonneg hrest]
    refine ⟨h.1, fun heq => ?_⟩
    exact Nat.even_iff.mpr (Nat.mod_two_ne_one.mp (h.2 heq.symm))

/-- Beside an integer within one half, all others are at least as far, those at one half included. -/
theorem dist_of_rounded {r k : ℕ} {t : ℚ} (hr : |(r : ℚ) - t| ≤ 1 / 2) (hk : k ≠ r) :
    1 / 2 ≤ |(k : ℚ) - t| := by
  have hone : (1 : ℚ) ≤ |(k : ℚ) - r| := by
    have h : (1 : ℤ) ≤ |(k : ℤ) - r| := Int.one_le_abs (by omega)
    exact_mod_cast h
  have htri : |(k : ℚ) - r| ≤ |(k : ℚ) - t| + |(r : ℚ) - t| := by
    rw [abs_sub_comm (r : ℚ) t]
    exact abs_sub_le _ _ _
  linarith

theorem scaled_eq (num den : ℕ) (e : ℤ) :
    ((scaled num den e).1 : ℚ) / (scaled num den e).2 = num / den / 2 ^ e := by
  have hpow := twoTo_div_twoTo (-e)
  rw [neg_neg, zpow_neg] at hpow
  rw [scaled, Nat.cast_mul, Nat.cast_mul, mul_div_mul_comm, hpow, ← div_eq_mul_inv]

theorem scaled_pos {den : ℕ} (h : 0 < den) (num : ℕ) (e : ℤ) : 0 < (scaled num den e).2 :=
  Nat.mul_pos h (twoTo_pos _)

/-- The exponent that gives a quotient a significand of 53 bits, or the least one. -/
def targetExponent (num den : ℕ) : ℤ :=
  let guess : ℤ := (num.log2 : ℤ) - den.log2 - 53
  let e := if twoTo 53 ≤ (scaled num den guess).1 / (scaled num den guess).2 then guess + 1 else guess
  max e minExponent

def targetSignificand (num den : ℕ) : ℕ :=
  let (a, b) := scaled num den (targetExponent num den)
  roundQuotient a b

theorem ofRatio_of_ne_zero {num : ℕ} (h : num ≠ 0) (negative : Bool) (den : ℕ) :
    ofRatio negative num den =
      if targetSignificand num den = twoTo 53 then
        if maxExponent < targetExponent num den + 1 then none
        else some ⟨negative, twoTo 52, targetExponent num den + 1⟩
      else if maxExponent < targetExponent num den then none
      else some ⟨negative, targetSignificand num den, targetExponent num den⟩ := by
  let carried := if targetSignificand num den = twoTo 53 then (twoTo 52, targetExponent num den + 1)
    else (targetSignificand num den, targetExponent num den)
  have hcarried : ofRatio negative num den =
      if maxExponent < carried.2 then none else some ⟨negative, carried.1, carried.2⟩ := by
    rw [ofRatio, if_neg h]
    rfl
  rw [hcarried]
  dsimp only [carried]
  split <;> rfl

theorem guess_bounds {num den : ℕ} (hnum : num ≠ 0) (hden : 0 < den) {e : ℤ}
    (he : e = (num.log2 : ℤ) - den.log2 - 53) :
    2 ^ 52 < (num / den / 2 ^ e : ℚ) ∧ (num / den / 2 ^ e : ℚ) < 2 ^ 54 := by
  have hpos : (0 : ℚ) < den := by exact_mod_cast hden
  have hstep : (0 : ℚ) < 2 ^ e := by positivity
  have hleading : (2 : ℚ) ^ e * 2 ^ den.log2 * 2 ^ 53 = 2 ^ num.log2 := by
    rw [← zpow_natCast, ← zpow_natCast, ← zpow_natCast, ← zpow_add₀ two_ne_zero,
      ← zpow_add₀ two_ne_zero, he]
    congr 1
    push_cast
    ring
  have hnum₁ : (2 : ℚ) ^ num.log2 ≤ num := by exact_mod_cast Nat.log2_self_le hnum
  have hnum₂ : (num : ℚ) < 2 ^ num.log2 * 2 := by
    rw [← pow_succ]
    exact_mod_cast Nat.lt_log2_self
  have hden₁ : (2 : ℚ) ^ den.log2 ≤ den := by exact_mod_cast Nat.log2_self_le hden.ne'
  have hden₂ : (den : ℚ) < 2 ^ den.log2 * 2 := by
    rw [← pow_succ]
    exact_mod_cast Nat.lt_log2_self
  rw [div_div, lt_div_iff₀ (by positivity), div_lt_iff₀ (by positivity)]
  constructor
  · calc (2 : ℚ) ^ 52 * (den * 2 ^ e)
        < 2 ^ 52 * (2 ^ den.log2 * 2 * 2 ^ e) := by gcongr
      _ = 2 ^ num.log2 := by rw [← hleading]; ring
      _ ≤ num := hnum₁
  · calc (num : ℚ)
        < 2 ^ num.log2 * 2 := hnum₂
      _ = 2 ^ 54 * (2 ^ den.log2 * 2 ^ e) := by rw [← hleading]; ring
      _ ≤ 2 ^ 54 * (den * 2 ^ e) := by gcongr

theorem targetExponent_spec {num den : ℕ} (hnum : num ≠ 0) (hden : 0 < den) :
    minExponent ≤ targetExponent num den ∧
    (num / den / 2 ^ targetExponent num den : ℚ) < 2 ^ 53 ∧
    (targetExponent num den = minExponent ∨
      2 ^ 52 ≤ (num / den / 2 ^ targetExponent num den : ℚ)) := by
  obtain ⟨guess, hguess⟩ : ∃ e : ℤ, e = (num.log2 : ℤ) - den.log2 - 53 := ⟨_, rfl⟩
  obtain ⟨hlow, hhigh⟩ := guess_bounds hnum hden hguess
  have hnext : (num / den / 2 ^ (guess + 1) : ℚ) = num / den / 2 ^ guess / 2 := by
    rw [zpow_add_one₀ two_ne_zero, div_div (_ / _)]
  have htest : twoTo 53 ≤ (scaled num den guess).1 / (scaled num den guess).2 ↔
      2 ^ 53 ≤ (num / den / 2 ^ guess : ℚ) := by
    have hpos : (0 : ℚ) < (scaled num den guess).2 := by exact_mod_cast scaled_pos hden num guess
    have htwo : (twoTo 53 : ℚ) = 2 ^ 53 := by norm_num [twoTo]
    rw [Nat.le_div_iff_mul_le (scaled_pos hden num guess), ← scaled_eq, le_div_iff₀ hpos,
      ← Nat.cast_le (α := ℚ), Nat.cast_mul, htwo]
  -- before the least exponent comes in, the significand has 53 bits
  obtain ⟨e, he, hlow', hhigh'⟩ : ∃ e, targetExponent num den = max e minExponent ∧
      2 ^ 52 ≤ (num / den / 2 ^ e : ℚ) ∧ (num / den / 2 ^ e : ℚ) < 2 ^ 53 := by
    refine ⟨_, rfl, ?_⟩
    rw [← hguess]
    split
    · next h =>
      rw [hnext]
      rw [htest] at h
      constructor <;> linarith
    · next h =>
      rw [htest, not_le] at h
      exact ⟨hlow.le, h⟩
  rw [he]
  refine ⟨le_max_right _ _, ?_, ?_⟩
  · refine lt_of_le_of_lt ?_ hhigh'
    gcongr
    · norm_num
    · exact le_max_left _ _
  · rcases le_total e minExponent with h | h
    · exact .inl (max_eq_right h)
    · rw [max_eq_left h]
      exact .inr hlow'

theorem targetSignificand_dist {den : ℕ} (hden : 0 < den) (num : ℕ) :
    |(targetSignificand num den : ℚ) - num / den / 2 ^ targetExponent num den| ≤ 1 / 2 ∧
    (|(targetSignificand num den : ℚ) - num / den / 2 ^ targetExponent num den| = 1 / 2 →
      Even (targetSignificand num den)) := by
  rw [← scaled_eq]
  exact roundQuotient_dist (scaled_pos hden num _)

theorem targetSignificand_bounds {num den : ℕ} (hnum : num ≠ 0) (hden : 0 < den) :
    targetSignificand num den ≤ 2 ^ 53 ∧
    (targetExponent num den = minExponent ∨ 2 ^ 52 ≤ targetSignificand num den) := by
  obtain ⟨-, hhigh, hlow⟩ := targetExponent_spec hnum hden
  have hdist := abs_le.mp (targetSignificand_dist hden num).1
  constructor
  · by_contra! hlt
    have hcast : (2 : ℚ) ^ 53 + 1 ≤ targetSignificand num den := by exact_mod_cast hlt
    linarith
  · refine hlow.imp_right fun hlow => ?_
    by_contra! hlt
    have hcast : (targetSignificand num den : ℚ) + 1 ≤ 2 ^ 52 := by exact_mod_cast hlt
    linarith

variable {negative : Bool} {num den : ℕ} {x : Binary64}

theorem ofRatio_spec (hnum : num ≠ 0) (hden : 0 < den) (h : ofRatio negative num den = some x) :
    x.Canonical ∧ x.negative = negative ∧
    x.magnitude = targetSignificand num den * 2 ^ targetExponent num den ∧
    (Even (targetSignificand num den) → Even x.significand) := by
  obtain ⟨hmin, -, -⟩ := targetExponent_spec hnum hden
  obtain ⟨hle, hnormal⟩ := targetSignificand_bounds hnum hden
  rw [ofRatio_of_ne_zero hnum] at h
  split at h
  · next hcarry =>
    obtain ⟨hmax, hx⟩ := Option.ite_none_left_eq_some.mp h
    cases hx
    have hlt : twoTo 52 < 2 ^ 53 := by decide
    have heven : Even (twoTo 52) := by decide
    refine ⟨⟨hlt, .inl le_rfl, ?_, not_lt.mp hmax⟩, rfl, ?_, fun _ => heven⟩
    · exact hmin.trans (Int.le_add_one le_rfl)
    · have htwo : (twoTo 53 : ℚ) = twoTo 52 * 2 := by norm_num [twoTo]
      rw [hcarry, magnitude, htwo, zpow_add_one₀ two_ne_zero]
      ring
  · next hcarry =>
    obtain ⟨hmax, hx⟩ := Option.ite_none_left_eq_some.mp h
    cases hx
    exact ⟨⟨lt_of_le_of_ne hle hcarry, hnormal.symm, hmin, not_lt.mp hmax⟩, rfl, rfl, id⟩

theorem ofRatio_isSome (hnum : num ≠ 0) (hden : 0 < den)
    (h : (num / den : ℚ) < 2 ^ (52 + maxExponent)) (negative : Bool) :
    ∃ x, ofRatio negative num den = some x := by
  rw [← Option.isSome_iff_exists, Option.isSome_iff_ne_none]
  intro hnone
  have hmax : maxExponent ≤ targetExponent num den := by
    rw [ofRatio_of_ne_zero hnum] at hnone
    split_ifs at hnone with _ hlt hlt <;> omega
  -- there the quotient has a full significand, so it reaches the binade
  obtain ⟨-, -, hmin | hfull⟩ := targetExponent_spec hnum hden
  · rw [hmin] at hmax
    exact absurd hmax (by decide)
  · have hpos : (0 : ℚ) < 2 ^ targetExponent num den := by positivity
    have hbinade : (2 : ℚ) ^ maxExponent ≤ 2 ^ targetExponent num den :=
      zpow_le_zpow_right₀ (by norm_num) hmax
    rw [zpow_add₀ two_ne_zero] at h
    rw [le_div_iff₀ hpos] at hfull
    have hfoot : (2 : ℚ) ^ (52 : ℤ) = 2 ^ 52 := by norm_num
    rw [hfoot] at h
    linarith

theorem exists_steps {e : ℤ} (h : e ≤ x.exponent) :
    ∃ k : ℕ, x.magnitude = k * 2 ^ e := by
  refine ⟨x.significand * twoTo (x.exponent - e).toNat, ?_⟩
  rw [magnitude, Nat.cast_mul, twoTo_toNat (by omega), mul_assoc, ← zpow_add₀ two_ne_zero,
    sub_add_cancel]

/-- In larger steps a number of the format lies below the binade of these steps. -/
theorem Canonical.magnitude_lt (hx : x.Canonical) {e : ℤ} (h : x.exponent < e) :
    x.magnitude < 2 ^ 52 * 2 ^ e := by
  have hsig : (x.significand : ℚ) < 2 ^ 53 := by exact_mod_cast hx.significand_lt
  calc x.magnitude
      < 2 ^ 53 * 2 ^ x.exponent := by unfold magnitude; gcongr
    _ = 2 ^ 52 * 2 ^ (x.exponent + 1) := by rw [zpow_add_one₀ two_ne_zero]; ring
    _ ≤ 2 ^ 52 * 2 ^ e := by
      gcongr
      · norm_num
      · exact h

/-- Among the magnitudes of the format the rounded one is nearest. -/
theorem ofRatio_dist (hnum : num ≠ 0) (hden : 0 < den) (h : ofRatio negative num den = some x)
    {y : Binary64} (hy : y.Canonical) :
    |x.magnitude - num / den| ≤ |y.magnitude - num / den| ∧
    (|x.magnitude - num / den| = |y.magnitude - num / den| → y.magnitude ≠ x.magnitude →
      Even x.significand) := by
  obtain ⟨-, -, hx, heven⟩ := ofRatio_spec hnum hden h
  obtain ⟨hdist, htie⟩ := targetSignificand_dist hden num
  obtain ⟨-, -, hfull⟩ := targetExponent_spec hnum hden
  generalize targetSignificand num den = m at *
  generalize targetExponent num den = e at *
  have hstep : (0 : ℚ) < 2 ^ e := by positivity
  obtain ⟨t, ht⟩ : ∃ t : ℚ, t = num / den / 2 ^ e := ⟨_, rfl⟩
  have hq : (num / den : ℚ) = t * 2 ^ e := by rw [ht, div_mul_cancel₀ _ hstep.ne']
  have hscale : ∀ r : ℚ, |r * 2 ^ e - t * 2 ^ e| = |r - t| * 2 ^ e := fun r => by
    rw [← sub_mul, abs_mul, abs_of_pos hstep]
  rw [← ht] at hdist htie hfull
  rw [hx, hq, hscale]
  rcases le_or_gt e y.exponent with hle | hlt
  · obtain ⟨k, hk⟩ := exists_steps hle
    rw [hk, hscale]
    by_cases hkm : k = m
    · subst hkm
      exact ⟨le_rfl, fun _ hne => absurd rfl hne⟩
    · have hother := dist_of_rounded hdist hkm
      refine ⟨?_, fun heq _ => heven (htie ?_)⟩
      · exact mul_le_mul_of_nonneg_right (hdist.trans hother) hstep.le
      · have hsame := mul_right_cancel₀ hstep.ne' heq
        linarith
  · -- the foot of the binade is a whole number of steps, nearer than all below it
    have hbelow := hy.magnitude_lt hlt
    have hfoot := hfull.resolve_left (lt_of_le_of_lt hy.minExponent_le hlt).ne'
    have hnear : |(m : ℚ) - t| ≤ t - 2 ^ 52 := by
      by_cases hm : m = 2 ^ 52
      · rw [hm, abs_sub_comm, abs_of_nonneg] <;> push_cast <;> linarith
      · have hother := dist_of_rounded hdist (Ne.symm hm)
        rw [abs_sub_comm, abs_of_nonneg (by push_cast; linarith)] at hother
        push_cast at hother
        linarith
    have hfar : |(m : ℚ) - t| * 2 ^ e < |y.magnitude - t * 2 ^ e| := by
      calc |(m : ℚ) - t| * 2 ^ e
          ≤ (t - 2 ^ 52) * 2 ^ e := by gcongr
        _ = t * 2 ^ e - 2 ^ 52 * 2 ^ e := sub_mul _ _ _
        _ < t * 2 ^ e - y.magnitude := by linarith
        _ ≤ |y.magnitude - t * 2 ^ e| := by rw [abs_sub_comm]; exact le_abs_self _
    exact ⟨hfar.le, fun heq => absurd heq hfar.ne⟩

theorem dist_signed (negative : Bool) (p q : ℚ) :
    |signed negative p - signed negative q| = |p - q| := by
  cases negative
  · rfl
  · rw [signed, signed, if_pos rfl, if_pos rfl, neg_sub_neg, abs_sub_comm]

theorem dist_signed_not (negative : Bool) {p q : ℚ} (hp : 0 ≤ p) (hq : 0 ≤ q) :
    |signed (!negative) p - signed negative q| = p + q := by
  rw [← abs_of_nonneg (add_nonneg hp hq)]
  cases negative
  · rw [signed, signed, Bool.not_false, if_pos rfl, if_neg Bool.false_ne_true, ← neg_add', abs_neg]
  · rw [signed, signed, Bool.not_true, if_pos rfl, if_neg Bool.false_ne_true, sub_neg_eq_add]

theorem zero_value (negative : Bool) : (zero negative).value = 0 := by
  rw [value, magnitude, zero, Nat.cast_zero, zero_mul, signed_zero]

theorem zero_nearest (negative : Bool) : Nearest 0 (zero negative) := by
  have hzero := zero_value negative
  have hrange : minExponent ≤ maxExponent := by decide
  refine ⟨⟨Nat.two_pow_pos 53, .inr rfl, le_rfl, hrange⟩, ?_, ?_⟩
  · intro y _
    rw [hzero, sub_zero, abs_zero]
    exact abs_nonneg _
  · intro y _ heq hne
    rw [hzero, sub_zero, abs_zero, sub_zero, eq_comm, abs_eq_zero] at heq
    exact absurd (heq.trans hzero.symm) hne

theorem ofRatio_nearest (hden : 0 < den) (h : ofRatio negative num den = some x) :
    Nearest (signed negative (num / den)) x := by
  by_cases hnum : num = 0
  · subst hnum
    cases h
    rw [Nat.cast_zero, zero_div, signed_zero]
    exact zero_nearest negative
  obtain ⟨hcanonical, hsign, -, -⟩ := ofRatio_spec hnum hden h
  have hq : (0 : ℚ) < num / den := by
    have hnum' : (0 : ℚ) < num := by exact_mod_cast Nat.pos_of_ne_zero hnum
    have hden' : (0 : ℚ) < den := by exact_mod_cast hden
    positivity
  have hx : |x.value - signed negative (num / den)| = |x.magnitude - num / den| := by
    rw [value, hsign, dist_signed]
  refine ⟨hcanonical, ?_, ?_⟩
  · intro y hy
    have hmag := y.magnitude_nonneg
    have hdist := (ofRatio_dist hnum hden h hy).1
    rw [hx]
    rcases Bool.eq_or_eq_not y.negative negative with hsame | hother
    · rw [value, hsame, dist_signed]
      exact hdist
    · rw [value, hother, dist_signed_not negative hmag hq.le]
      exact hdist.trans (abs_le.mpr ⟨by linarith, by linarith⟩)
  · intro y hy heq hne
    have hmag := y.magnitude_nonneg
    obtain ⟨hdist, heven⟩ := ofRatio_dist hnum hden h hy
    rw [hx] at heq
    rcases Bool.eq_or_eq_not y.negative negative with hsame | hother
    · rw [value, hsame, dist_signed] at heq
      refine heven heq fun hxy => hne ?_
      rw [value, value, hsame, hsign, hxy]
    · -- of the numbers of the other sign only zero is no farther off
      rw [value, hother, dist_signed_not negative hmag hq.le] at heq
      rw [heq] at hdist heven
      have hzero : y.magnitude = 0 := by
        rcases le_abs.mp hdist with h | h <;> linarith
      rw [hzero, zero_sub, abs_neg, abs_of_pos hq, zero_add] at heven
      refine heven rfl fun hxy => hne ?_
      rw [value, value, hzero, ← hxy, signed_zero, signed_zero]

theorem signed_mul (a b : Bool) (p q : ℚ) : signed (a != b) (p * q) = signed a p * signed b q := by
  cases a <;> cases b <;> simp [signed]

theorem ratio_pos (x : Binary64) : 0 < x.ratio.2 := twoTo_pos _

theorem ratio_mul (x y : Binary64) :
    ((x.ratio.1 * y.ratio.1 : ℕ) : ℚ) / (x.ratio.2 * y.ratio.2 : ℕ) = x.magnitude * y.magnitude := by
  rw [Nat.cast_mul, Nat.cast_mul, mul_div_mul_comm, ratio_eq, ratio_eq]

theorem times_nearest {x y z : Binary64} (h : x.times? y = some z) :
    Nearest (x.value * y.value) z := by
  have hz := ofRatio_nearest (Nat.mul_pos x.ratio_pos y.ratio_pos) h
  rw [ratio_mul, signed_mul] at hz
  exact hz

theorem times_isSome {x y : Binary64} (hpos : 0 < x.magnitude * y.magnitude)
    (h : x.magnitude * y.magnitude < 2 ^ (52 + maxExponent)) : ∃ z, x.times? y = some z := by
  rw [← ratio_mul] at hpos h
  refine ofRatio_isSome (fun hnum => ?_) (Nat.mul_pos x.ratio_pos y.ratio_pos) h _
  rw [hnum, Nat.cast_zero, zero_div] at hpos
  exact lt_irrefl _ hpos

end Covenant.Binary64
