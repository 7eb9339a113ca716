import Descent.Binary64.Shortest
import Mathlib.Algebra.Order.Field.Power
import Mathlib.Algebra.Order.Ring.Rat
import Mathlib.Data.Int.Log
import Mathlib.Data.Rat.Floor
import Mathlib.Tactic.FieldSimp
import Mathlib.Tactic.Linarith
import Mathlib.Tactic.NormNum
import Mathlib.Tactic.Positivity
import Mathlib.Tactic.Ring

/-!
# Shortest decimals read back

The decimal that is written for a magnitude reads back as that magnitude
(`decimalMagnitude_shortestDigits`). Every candidate among the short ones is tested for this, and
only when all fail are the exact digits taken; so what is to be shown is that reading is exact on
the numbers that are doubles.

The natural numbers of the conversion are quotients in disguise: a scale is a power of two that is
multiplied to one side or the other, by its sign. As rational numbers they are one product, and the
exponent of the leading bit is the one that puts a quotient between two powers of two.
-/

namespace Descent.Binary64

/-! ## Scaled quotients -/

variable {num den : ℕ}

theorem scaled_lt_iff (hden : 0 < den) (k : ℤ) :
    num * Nat.pow 2 (-k).toNat < den * Nat.pow 2 k.toNat ↔ (num : ℚ) / den < 2 ^ k := by
  have hden' : (0 : ℚ) < den := Nat.cast_pos.mpr hden
  simp only [Nat.pow_eq]
  obtain ⟨n, rfl | rfl⟩ := k.eq_nat_or_neg
  · rw [div_lt_iff₀ hden', Int.toNat_natCast, Int.toNat_of_nonpos (by omega), zpow_natCast]
    rw [pow_zero, mul_one, mul_comm ((2 : ℚ) ^ n)]
    exact_mod_cast Iff.rfl
  · rw [div_lt_iff₀ hden', neg_neg, Int.toNat_natCast, Int.toNat_of_nonpos (by omega), zpow_neg,
      zpow_natCast, pow_zero, mul_one, inv_mul_eq_div, lt_div_iff₀ (by positivity)]
    exact_mod_cast Iff.rfl

theorem scaled_eq_iff (hden : 0 < den) (s : ℕ) (k : ℤ) :
    num * Nat.pow 2 (-k).toNat = s * (den * Nat.pow 2 k.toNat) ↔
      (num : ℚ) / den = s * 2 ^ k := by
  have hden' : (den : ℚ) ≠ 0 := Nat.cast_ne_zero.mpr (Nat.pos_iff_ne_zero.mp hden)
  simp only [Nat.pow_eq]
  obtain ⟨n, rfl | rfl⟩ := k.eq_nat_or_neg
  · rw [div_eq_iff hden', Int.toNat_natCast, Int.toNat_of_nonpos (by omega), zpow_natCast,
      pow_zero, mul_one, mul_assoc, mul_comm ((2 : ℚ) ^ n)]
    exact_mod_cast Iff.rfl
  · rw [div_eq_iff hden', neg_neg, Int.toNat_natCast, Int.toNat_of_nonpos (by omega), zpow_neg,
      zpow_natCast, pow_zero, mul_one, mul_assoc, mul_comm ((2 : ℚ) ^ n)⁻¹, ← mul_assoc,
      eq_mul_inv_iff_mul_eq₀ (by positivity)]
    exact_mod_cast Iff.rfl

/-- A quotient has the logarithm of the two powers that it is between. -/
theorem log_eq_of_between {q : ℚ} {k : ℤ} (hlo : (2 : ℚ) ^ k ≤ q) (hhi : q < 2 ^ (k + 1)) :
    Int.log 2 q = k := by
  have hq : 0 < q := lt_of_lt_of_le (by positivity) hlo
  have h₁ : k ≤ Int.log 2 q := (Int.zpow_le_iff_le_log one_lt_two hq).mp (by exact_mod_cast hlo)
  have h₂ : Int.log 2 q < k + 1 :=
    (Int.lt_zpow_iff_log_lt one_lt_two hq).mp (by exact_mod_cast hhi)
  omega

/-- The leading bits of two numbers tell that of their quotient but for one. -/
theorem quotient_between (hnum : 0 < num) (hden : 0 < den) :
    (2 : ℚ) ^ ((num.log2 : ℤ) - den.log2 - 1) ≤ num / den ∧
      (num : ℚ) / den < 2 ^ ((num.log2 : ℤ) - den.log2 + 1) := by
  have hden' : (0 : ℚ) < den := Nat.cast_pos.mpr hden
  have hnum₁ : (2 : ℚ) ^ num.log2 ≤ num := by
    exact_mod_cast Nat.log2_self_le (Nat.pos_iff_ne_zero.mp hnum)
  have hnum₂ : (num : ℚ) < 2 ^ (num.log2 + 1) := by exact_mod_cast Nat.lt_log2_self
  have hden₁ : (2 : ℚ) ^ den.log2 ≤ den := by
    exact_mod_cast Nat.log2_self_le (Nat.pos_iff_ne_zero.mp hden)
  have hden₂ : (den : ℚ) < 2 ^ (den.log2 + 1) := by exact_mod_cast Nat.lt_log2_self
  have hlow : (2 : ℚ) ^ ((num.log2 : ℤ) - den.log2 - 1) = 2 ^ num.log2 / 2 ^ (den.log2 + 1) := by
    rw [sub_sub, zpow_sub₀ two_ne_zero]
    exact_mod_cast rfl
  have hhigh : (2 : ℚ) ^ ((num.log2 : ℤ) - den.log2 + 1) = 2 ^ (num.log2 + 1) / 2 ^ den.log2 := by
    rw [sub_add_eq_add_sub, zpow_sub₀ two_ne_zero]
    exact_mod_cast rfl
  rw [hlow, hhigh]
  constructor
  · exact div_le_div₀ (by positivity) hnum₁ hden' hden₂.le
  · exact div_lt_div₀ hnum₂ hden₁ (by positivity) (by positivity)

theorem leadingExponent_eq (hnum : 0 < num) (hden : 0 < den) :
    leadingExponent num den = Int.log 2 ((num : ℚ) / den) := by
  obtain ⟨hlow, hhigh⟩ := quotient_between hnum hden
  unfold leadingExponent
  dsimp only
  split
  · next h =>
    rw [scaled_lt_iff hden] at h
    rw [log_eq_of_between hlow (by rwa [sub_add_cancel])]
  · next h =>
    rw [scaled_lt_iff hden, not_lt] at h
    rw [log_eq_of_between h hhigh]

/-! ## Exact quotients -/

/-- The absolute value of the doubles with a magnitude. -/
def value (magnitude : ℕ) : ℚ := significand magnitude * 2 ^ exponent magnitude

theorem roundQuotient_mul (n : ℕ) (hden : 0 < den) : roundQuotient (n * den) den = n := by
  unfold roundQuotient
  simp [Nat.mul_div_cancel n hden, hden]

variable {m : ℕ}

theorem significand_pos (hm : 0 < m) : 0 < significand m := by
  unfold significand unitBit
  split <;> omega

theorem value_pos (hm : 0 < m) : 0 < value m := by
  have hs : (0 : ℚ) < significand m := Nat.cast_pos.mpr (significand_pos hm)
  unfold value
  positivity

/-- The significand of a normal number has 53 bits. -/
theorem significand_between (hm : unitBit ≤ m) :
    2 ^ 52 ≤ significand m ∧ significand m < 2 ^ 53 := by
  unfold significand
  rw [if_neg (Nat.not_lt.mpr hm)]
  unfold unitBit at *
  omega

/-- The exponent of a magnitude is the scale that the conversion takes for its value. -/
theorem scale_of_value (hm : 0 < m) :
    (if Int.log 2 (value m) < -1022 then -1074 else Int.log 2 (value m) - 52) = exponent m := by
  by_cases h : m < unitBit
  · have hvalue : value m < 2 ^ (-1022 : ℤ) := by
      have hm' : (m : ℚ) < 2 ^ 52 := by exact_mod_cast h
      unfold value significand exponent
      rw [if_pos h, if_pos h]
      calc (m : ℚ) * 2 ^ (-1074 : ℤ) < 2 ^ 52 * 2 ^ (-1074 : ℤ) := by gcongr
        _ = 2 ^ (-1022 : ℤ) := by
          rw [show (-1022 : ℤ) = (52 : ℕ) + -1074 by norm_num, zpow_add₀ two_ne_zero, zpow_natCast]
    rw [if_pos ((Int.lt_zpow_iff_log_lt one_lt_two (value_pos hm)).mp (by exact_mod_cast hvalue))]
    rw [exponent, if_pos h]
  · obtain ⟨hlow, hhigh⟩ := significand_between (Nat.not_lt.mp h)
    have hlow' : (2 : ℚ) ^ 52 ≤ significand m := by exact_mod_cast hlow
    have hhigh' : (significand m : ℚ) < 2 ^ 53 := by exact_mod_cast hhigh
    have hlog : Int.log 2 (value m) = 52 + exponent m := by
      unfold value
      apply log_eq_of_between
      · rw [zpow_add₀ two_ne_zero]
        gcongr
        exact_mod_cast hlow'
      · rw [show (52 + exponent m + 1 : ℤ) = 53 + exponent m by ring, zpow_add₀ two_ne_zero]
        gcongr
        exact_mod_cast hhigh'
    have hexponent : -1074 ≤ exponent m := by
      unfold exponent unitBit at *
      rw [if_neg h]
      omega
    rw [hlog, if_neg (by omega)]
    ring

theorem magnitude_eq (m : ℕ) :
    (exponent m + 1074).toNat * unitBit + significand m = m := by
  unfold exponent significand unitBit
  split
  · simp
  · omega

/-- The double nearest to a quotient that is the value of a double is that double. -/
theorem nearestMagnitude_eq (hm : 0 < m) (hfinite : m < infiniteMagnitude) (hden : 0 < den)
    (h : (num : ℚ) / den = value m) : nearestMagnitude num den = m := by
  have hnum : 0 < num := by
    apply Nat.pos_of_ne_zero
    rintro rfl
    rw [Nat.cast_zero, zero_div] at h
    exact absurd h (value_pos hm).ne
  have hscaled : 0 < den * Nat.pow 2 (exponent m).toNat := Nat.mul_pos hden (Nat.two_pow_pos _)
  unfold nearestMagnitude
  dsimp only
  rw [leadingExponent_eq hnum hden, h, scale_of_value hm, (scaled_eq_iff hden _ _).mpr h,
    roundQuotient_mul _ hscaled, magnitude_eq, if_pos hfinite]

/-! ## The digits that are written -/

theorem decimalMagnitude_zero (e : ℤ) : decimalMagnitude 0 e = 0 := if_pos rfl

/-- The exact digits of a magnitude are its value. -/
theorem decimalMagnitude_exactDigits (hm : 0 < m) (hfinite : m < infiniteMagnitude) :
    decimalMagnitude (exactDigits m).1 (exactDigits m).2 = m := by
  have hs : 0 < significand m := significand_pos hm
  unfold exactDigits
  dsimp only
  by_cases hscale : 0 ≤ exponent m
  · obtain ⟨k, hk⟩ := Int.eq_ofNat_of_zero_le hscale
    have hdigits : significand m * Nat.pow 2 k ≠ 0 :=
      Nat.mul_ne_zero hs.ne' (Nat.two_pow_pos k).ne'
    rw [if_pos hscale, hk]
    show decimalMagnitude (significand m * Nat.pow 2 k) 0 = m
    unfold decimalMagnitude
    rw [if_neg hdigits, if_neg (by omega), if_neg (by omega)]
    apply nearestMagnitude_eq hm hfinite (Nat.pow_pos (by decide))
    unfold value
    rw [hk]
    simp
  · obtain ⟨k, hk⟩ := Int.eq_ofNat_of_zero_le (show 0 ≤ -exponent m by omega)
    obtain hk' : exponent m = -k := by omega
    have hdigits : significand m * Nat.pow 5 k ≠ 0 :=
      Nat.mul_ne_zero hs.ne' (Nat.pow_pos (by decide)).ne'
    -- The scale is small only as far as the digits are many.
    have hlog : k ≤ (significand m * Nat.pow 5 k).log2 := by
      rw [Nat.le_log2 hdigits]
      calc 2 ^ k ≤ 5 ^ k := Nat.pow_le_pow_left (by decide) k
        _ ≤ significand m * 5 ^ k := Nat.le_mul_of_pos_left _ hs
    rw [if_neg hscale, hk, Int.toNat_natCast, hk']
    show decimalMagnitude (significand m * Nat.pow 5 k) (-k) = m
    unfold decimalMagnitude
    rw [if_neg hdigits, if_neg (by omega), if_neg (by omega)]
    apply nearestMagnitude_eq hm hfinite (Nat.pow_pos (by decide))
    have hten : (10 : ℚ) ^ k = 5 ^ k * 2 ^ k := by
      rw [← mul_pow]
      norm_num
    unfold value
    rw [hk', neg_neg, Int.toNat_natCast, Int.toNat_of_nonpos (by omega), zpow_neg, zpow_natCast]
    simp only [Nat.pow_eq, Nat.cast_mul, Nat.cast_pow, Nat.cast_ofNat, pow_zero, mul_one, hten]
    field_simp

/-- The candidates are tested. -/
theorem readsBack_of_nearestDigits? {k : ℤ} {n : ℕ} {d : Digits}
    (h : nearestDigits? m k n = some d) : decimalMagnitude d.1 d.2 = m := by
  unfold nearestDigits? at h
  dsimp only at h
  split at h
  · next hbelow habove =>
    split at h <;> cases h
    · exact eq_of_beq hbelow
    · exact eq_of_beq habove
  · next hbelow _ =>
    cases h
    exact eq_of_beq hbelow
  · next _ habove =>
    cases h
    exact eq_of_beq habove
  · cases h

theorem decimalMagnitude_shortestFrom (hm : 0 < m) (hfinite : m < infiniteMagnitude) (k : ℤ)
    (n tries : ℕ) :
    decimalMagnitude (shortestFrom m k n tries).1 (shortestFrom m k n tries).2 = m := by
  induction tries generalizing n with
  | zero => exact decimalMagnitude_exactDigits hm hfinite
  | succ tries ih =>
    unfold shortestFrom
    split
    · next d h => exact readsBack_of_nearestDigits? h
    · next h => exact ih (n + 1)

/-- The decimal that is written for a finite magnitude reads back as that magnitude. -/
theorem decimalMagnitude_shortestDigits (hfinite : m < infiniteMagnitude) :
    decimalMagnitude (shortestDigits m).1 (shortestDigits m).2 = m := by
  unfold shortestDigits
  split
  · next h =>
    rw [h]
    exact decimalMagnitude_zero 0
  · next h => exact decimalMagnitude_shortestFrom (Nat.pos_of_ne_zero h) hfinite _ _ _

/-- Zeros at the end of the digits are as good as a scale. -/
theorem decimalMagnitude_mul_pow {n k : ℕ} (h : decimalMagnitude n k < infiniteMagnitude) :
    decimalMagnitude (n * Nat.pow 10 k) 0 = decimalMagnitude n k := by
  by_cases hn : n = 0
  · rw [hn, Nat.zero_mul, decimalMagnitude_zero, decimalMagnitude_zero]
  · have hdigits : n * Nat.pow 10 k ≠ 0 := Nat.mul_ne_zero hn (Nat.pow_pos (by decide)).ne'
    have hk : ¬ (400 : ℤ) < k := by
      intro hlarge
      unfold decimalMagnitude at h
      rw [if_neg hn, if_pos hlarge] at h
      exact absurd h (lt_irrefl _)
    unfold decimalMagnitude
    rw [if_neg hn, if_neg hdigits, if_neg hk, if_neg (by omega), if_neg (by omega),
      if_neg (by omega), Int.toNat_natCast, Int.toNat_of_nonpos (by omega)]
    simp

/-! ## Signs -/

/-- A double is its sign and its magnitude. -/
theorem ofMagnitude_magnitude (x : Binary64) : ofMagnitude x.isNegative x.magnitude = x := by
  have hbits : x.bits.toNat < 2 ^ 64 := x.bits.toNat_lt
  have hsum : (if x.isNegative then signBit else 0) + x.magnitude = x.bits.toNat := by
    unfold isNegative magnitude signBit
    split
    · next h =>
      have := of_decide_eq_true h
      omega
    · next h =>
      have := of_decide_eq_false (Bool.eq_false_iff.mpr h)
      omega
  rw [ofMagnitude, hsum, UInt64.ofNat_toNat]

end Descent.Binary64
