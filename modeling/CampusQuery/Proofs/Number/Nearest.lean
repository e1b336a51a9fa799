import Mathlib.Algebra.Order.Field.Power
import Mathlib.Algebra.Order.Field.Rat
import Mathlib.Data.Int.Log
import Mathlib.Data.Rat.Floor
import Mathlib.Tactic.Linarith
import Mathlib.Tactic.Positivity
import Mathlib.Tactic.Ring
import CampusQuery.Number.Shortest

/-!
Rounding of quotients to doubles. Main statements: the nearest double depends on the quotient alone,
and a quotient that is a double is rounded to that double.
-/

namespace CampusQuery

section Scaling

variable {num den : Nat} (shift : Int)

theorem scaleByTwo_pos (hden : 0 < den) : 0 < (scaleByTwo shift num den).2 := by
  cases shift with
  | ofNat n => exact hden
  | negSucc n => exact Nat.mul_pos hden (Nat.two_pow_pos _)

theorem scaleByTen_pos (hden : 0 < den) : 0 < (scaleByTen shift num den).2 := by
  cases shift with
  | ofNat n => exact hden
  | negSucc n => exact Nat.mul_pos hden (Nat.pow_pos (by decide))

theorem scaleByTwo_div (num den : Nat) :
    ((scaleByTwo shift num den).1 : ℚ) / (scaleByTwo shift num den).2 =
      (num : ℚ) / den * 2 ^ shift := by
  cases shift with
  | ofNat n =>
    simp only [scaleByTwo, Nat.cast_mul, Nat.cast_pow, Nat.cast_ofNat, Int.ofNat_eq_natCast,
      zpow_natCast]
    ring
  | negSucc n =>
    simp only [scaleByTwo, Nat.cast_mul, Nat.cast_pow, Nat.cast_ofNat, zpow_negSucc]
    rw [div_mul_eq_div_div, div_eq_mul_inv (_ / _)]

theorem scaleByTwo_lt {n : Nat} (hden : 0 < den) (h : (num : ℚ) / den * 2 ^ shift < n) :
    (scaleByTwo shift num den).1 < n * (scaleByTwo shift num den).2 := by
  have hpos : (0 : ℚ) < (scaleByTwo shift num den).2 := by exact_mod_cast scaleByTwo_pos shift hden
  rw [← scaleByTwo_div, div_lt_iff₀ hpos] at h
  exact_mod_cast h

theorem scaleByTen_div (num den : Nat) :
    ((scaleByTen shift num den).1 : ℚ) / (scaleByTen shift num den).2 =
      (num : ℚ) / den * 10 ^ shift := by
  cases shift with
  | ofNat n =>
    simp only [scaleByTen, Nat.cast_mul, Nat.cast_pow, Nat.cast_ofNat, Int.ofNat_eq_natCast,
      zpow_natCast]
    ring
  | negSucc n =>
    simp only [scaleByTen, Nat.cast_mul, Nat.cast_pow, Nat.cast_ofNat, zpow_negSucc]
    rw [div_mul_eq_div_div, div_eq_mul_inv (_ / _)]

end Scaling

section Rounding

variable {num den : Nat}

theorem roundDiv_mul_right (tie : Tie) {k : Nat} (hk : 0 < k) :
    roundDiv tie (num * k) (den * k) = roundDiv tie num den := by
  have halves : ∀ a b : Nat, 2 * (a * k) < b * k ↔ 2 * a < b := by
    intro a b
    rw [← Nat.mul_assoc]
    exact Nat.mul_lt_mul_right hk
  have doubles : ∀ a b : Nat, b * k < 2 * (a * k) ↔ b < 2 * a := by
    intro a b
    rw [← Nat.mul_assoc]
    exact Nat.mul_lt_mul_right hk
  simp only [roundDiv, Nat.mul_div_mul_right _ _ hk, Nat.mul_mod_mul_right, halves, doubles]

/-- Rounding depends on the quotient alone. -/
theorem roundDiv_congr (tie : Tie) {num' den' : Nat} (hden : 0 < den) (hden' : 0 < den')
    (h : (num : ℚ) / den = num' / den') : roundDiv tie num den = roundDiv tie num' den' := by
  have hq : (den : ℚ) ≠ 0 := by positivity
  have hq' : (den' : ℚ) ≠ 0 := by positivity
  rw [div_eq_div_iff hq hq'] at h
  have cross : num * den' = num' * den := by exact_mod_cast h
  rw [← roundDiv_mul_right tie hden', cross, Nat.mul_comm den den', roundDiv_mul_right tie hden]

theorem roundDiv_one (tie : Tie) (n : Nat) : roundDiv tie n 1 = n := by
  rw [roundDiv_of_dvd tie Nat.one_pos (Nat.one_dvd n), Nat.div_one]

/-- The rounded quotient is at most half a unit away from the exact one. -/
theorem abs_roundDiv_sub_le (tie : Tie) (num : Nat) (hden : 0 < den) :
    |(roundDiv tie num den : ℚ) - num / den| ≤ 1 / 2 := by
  obtain ⟨upper, lower⟩ := roundDiv_near tie num den hden
  have hpos : (0 : ℚ) < den := by exact_mod_cast hden
  have upper : 2 * ((roundDiv tie num den : ℚ) * den) ≤ 2 * num + den := by exact_mod_cast upper
  have lower : 2 * (num : ℚ) ≤ 2 * (roundDiv tie num den * den) + den := by exact_mod_cast lower
  rw [abs_le]
  constructor
  · rw [neg_le_sub_iff_le_add, div_le_iff₀ hpos]
    linarith
  · rw [sub_le_iff_le_add, ← sub_le_iff_le_add', le_div_iff₀ hpos]
    linarith

/-- A quotient rounds up to a whole number that it reaches. -/
theorem le_roundDiv (tie : Tie) {n : Nat} (hden : 0 < den) (h : n * den ≤ num) :
    n ≤ roundDiv tie num den := by
  have below := (Nat.le_div_iff_mul_le hden).2 h
  simp only [roundDiv]
  generalize num / den = whole at *
  split
  · omega
  split
  · exact below
  · cases tie <;> simp only <;> omega

/-- A quotient rounds up to no more than the whole number that it stays below. -/
theorem roundDiv_le (tie : Tie) {n : Nat} (h : num < n * den) : roundDiv tie num den ≤ n := by
  have below := (Nat.div_lt_iff_lt_mul (Nat.pos_of_lt_mul_left h)).2 h
  simp only [roundDiv]
  generalize num / den = whole at *
  split
  · omega
  split
  · omega
  · cases tie <;> simp only <;> omega

end Rounding

section Exponent

variable {num den : Nat}

theorem two_zpow_le_iff {q : ℚ} (hq : 0 < q) {n : Int} : 2 ^ n ≤ q ↔ n ≤ Int.log 2 q := by
  simpa using Int.zpow_le_iff_le_log (b := 2) (x := n) (by decide) hq

theorem lt_two_zpow_iff {q : ℚ} (hq : 0 < q) {n : Int} : q < 2 ^ n ↔ Int.log 2 q < n := by
  simpa using Int.lt_zpow_iff_log_lt (b := 2) (x := n) (by decide) hq

/-- The exponent that `unitExponent` begins with is that of the leading bit or one more. -/
theorem log2_quotient (hnum : 0 < num) (hden : 0 < den) :
    (2 : ℚ) ^ ((num.log2 : Int) - den.log2 - 1) < (num : ℚ) / den ∧
      (num : ℚ) / den < 2 ^ ((num.log2 : Int) - den.log2 + 1) := by
  have hnum₁ : (2 : ℚ) ^ num.log2 ≤ num := by exact_mod_cast Nat.log2_self_le hnum.ne'
  have hnum₂ : (num : ℚ) < 2 ^ (num.log2 + 1) := by exact_mod_cast Nat.lt_log2_self (n := num)
  have hden₁ : (2 : ℚ) ^ den.log2 ≤ den := by exact_mod_cast Nat.log2_self_le hden.ne'
  have hden₂ : (den : ℚ) < 2 ^ (den.log2 + 1) := by exact_mod_cast Nat.lt_log2_self (n := den)
  have hq : (0 : ℚ) < den := by positivity
  constructor
  · rw [lt_div_iff₀ hq]
    calc (2 : ℚ) ^ ((num.log2 : Int) - den.log2 - 1) * den
      _ < 2 ^ ((num.log2 : Int) - den.log2 - 1) * 2 ^ (den.log2 + 1) := by gcongr
      _ = 2 ^ num.log2 := by
        rw [← zpow_natCast, ← zpow_add₀ two_ne_zero, ← zpow_natCast]
        congr 1
        push_cast
        ring
      _ ≤ num := hnum₁
  · rw [div_lt_iff₀ hq]
    calc (num : ℚ)
      _ < 2 ^ (num.log2 + 1) := hnum₂
      _ = 2 ^ ((num.log2 : Int) - den.log2 + 1) * 2 ^ den.log2 := by
        rw [← zpow_natCast, ← zpow_natCast, ← zpow_add₀ two_ne_zero]
        congr 1
        push_cast
        ring
      _ ≤ 2 ^ ((num.log2 : Int) - den.log2 + 1) * den := by gcongr

/-- The unit of the significand lies 52 bits below the leading bit of the quotient. -/
theorem unitExponent_eq (hnum : 0 < num) (hden : 0 < den) :
    unitExponent num den = max (-1074) (Int.log 2 ((num : ℚ) / den) - 52) := by
  obtain ⟨lower, upper⟩ := log2_quotient hnum hden
  have lower' := lower.le
  have hq : (0 : ℚ) < (num : ℚ) / den := by positivity
  let guess : Int := Int.ofNat num.log2 - Int.ofNat den.log2 - 52
  have below : (scaleByTwo (-guess) num den).1 < (scaleByTwo (-guess) num den).2 * 2 ^ 52 ↔
      (num : ℚ) / den < 2 ^ (guess + 52) := by
    have hpos : (0 : ℚ) < (scaleByTwo (-guess) num den).2 := by
      exact_mod_cast scaleByTwo_pos _ hden
    rw [← Nat.cast_lt (α := ℚ), Nat.cast_mul, mul_comm, ← div_lt_iff₀ hpos, scaleByTwo_div,
      zpow_neg, ← div_eq_mul_inv, div_lt_iff₀ (by positivity), zpow_add₀ two_ne_zero, mul_comm]
    norm_num
  unfold unitExponent
  simp only
  change max (-1074) (if (scaleByTwo (-guess) num den).1 < (scaleByTwo (-guess) num den).2 * 2 ^ 52
    then guess - 1 else guess) = _
  congr 1
  rw [two_zpow_le_iff hq] at lower'
  rw [lt_two_zpow_iff hq] at upper below
  rw [if_congr below rfl rfl]
  simp only [guess, Int.ofNat_eq_natCast]
  split <;> omega

end Exponent

section Nearest

variable {num den : Nat}

/-- The quotient in units of its exponent, and what it is rounded to. -/
theorem nearestBits_eq (hnum : 0 < num) {exponent : Int} (h : unitExponent num den = exponent) :
    nearestBits num den =
      min (roundDiv .even (scaleByTwo (-exponent) num den).1 (scaleByTwo (-exponent) num den).2 +
        (exponent + 1074).toNat * 2 ^ 52) (2047 * 2 ^ 52) := by
  rw [nearestBits, if_neg hnum.ne', h]

theorem nearestBits_le (num den : Nat) : nearestBits num den ≤ 2047 * 2 ^ 52 := by
  rcases Nat.eq_zero_or_pos num with rfl | hnum
  · simp [nearestBits]
  · rw [nearestBits_eq hnum rfl]
    omega

theorem nearestBits_congr {num' den' : Nat} (hden : 0 < den) (hden' : 0 < den')
    (h : (num : ℚ) / den = num' / den') : nearestBits num den = nearestBits num' den' := by
  have hq : (den : ℚ) ≠ 0 := by positivity
  have hq' : (den' : ℚ) ≠ 0 := by positivity
  rcases Nat.eq_zero_or_pos num with rfl | hnum
  · have hzero : num' = 0 := by
      rw [Nat.cast_zero, zero_div] at h
      simpa [hden'.ne'] using h.symm
    rw [hzero, nearestBits, nearestBits, if_pos rfl, if_pos rfl]
  · have hnum' : 0 < num' := by
      have : (0 : ℚ) < num' / den' := h ▸ by positivity
      rcases Nat.eq_zero_or_pos num' with rfl | hpos
      · simp at this
      · exact hpos
    have exponents : unitExponent num den = unitExponent num' den' := by
      rw [unitExponent_eq hnum hden, unitExponent_eq hnum' hden', h]
    rw [nearestBits_eq hnum exponents, nearestBits_eq hnum' rfl]
    rw [roundDiv_congr .even (scaleByTwo_pos _ hden) (scaleByTwo_pos _ hden')]
    rw [scaleByTwo_div, scaleByTwo_div, h]

/-- A significand and an exponent as doubles have them. -/
structure Canonical (significand : Nat) (exponent : Int) : Prop where
  significand_lt : significand < 2 ^ 53
  least_le : -1074 ≤ exponent
  normal : exponent = -1074 ∨ 2 ^ 52 ≤ significand

/-- A quotient that is a double is rounded to it. -/
theorem nearestBits_of_canonical {significand : Nat} {exponent : Int} (hden : 0 < den)
    (canonical : Canonical significand exponent)
    (h : (num : ℚ) / den = significand * 2 ^ exponent) :
    nearestBits num den =
      min (significand + (exponent + 1074).toNat * 2 ^ 52) (2047 * 2 ^ 52) := by
  obtain ⟨hlt, hleast, hnormal⟩ := canonical
  have hq : (den : ℚ) ≠ 0 := by positivity
  rcases Nat.eq_zero_or_pos num with rfl | hnum
  · have hzero : significand = 0 := by
      rw [Nat.cast_zero, zero_div] at h
      have : (2 : ℚ) ^ exponent ≠ 0 := by positivity
      simpa [this] using h.symm
    obtain rfl : exponent = -1074 := by omega
    simp [nearestBits, hzero]
  have hpos : (0 : ℚ) < num / den := by positivity
  have hbelow : (num : ℚ) / den < 2 ^ (exponent + 53) := by
    rw [h, add_comm, zpow_add₀ two_ne_zero]
    have : (significand : ℚ) < 2 ^ (53 : Int) := by exact_mod_cast hlt
    gcongr
  have hexponent : unitExponent num den = exponent := by
    rw [unitExponent_eq hnum hden]
    rw [lt_two_zpow_iff hpos] at hbelow
    rcases hnormal with rfl | hnormal
    · omega
    · have habove : (2 : ℚ) ^ (exponent + 52) ≤ num / den := by
        rw [h, add_comm, zpow_add₀ two_ne_zero]
        have : (2 : ℚ) ^ (52 : Int) ≤ significand := by exact_mod_cast hnormal
        gcongr
      rw [two_zpow_le_iff hpos] at habove
      omega
  have scaled : ((scaleByTwo (-exponent) num den).1 : ℚ) / (scaleByTwo (-exponent) num den).2 =
      significand / (1 : Nat) := by
    rw [scaleByTwo_div, h, mul_assoc, ← zpow_add₀ two_ne_zero]
    simp
  rw [nearestBits_eq hnum hexponent,
    roundDiv_congr .even (scaleByTwo_pos _ hden) Nat.one_pos scaled, roundDiv_one]

end Nearest

end CampusQuery
