import CampusQuery.Proofs.Json.Literal
import CampusQuery.Proofs.Number.Accuracy

/-!
Literals of few digits. Main statements: a literal whose digits have at most 53 bits and whose power
of ten is at most 22 is read as the double nearest to it, and a double with such a text survives it.
-/

namespace CampusQuery

namespace NumberLiteral

section Parts

theorem takeUp_eq {digits : List Char} {n : Nat} (h : Nat.ofDigitChars 10 digits n < 2 ^ 64) :
    takeUp n digits = (Nat.ofDigitChars 10 digits n, []) := by
  induction digits generalizing n with
  | nil => rfl
  | cons c cs ih =>
    rw [Nat.ofDigitChars_cons] at h ⊢
    have small : 10 * n + (c.toNat - '0'.toNat) < 2 ^ 64 := by
      refine Nat.lt_of_le_of_lt ?_ h
      rw [Nat.ofDigitChars_eq_ofDigitChars_zero]
      exact Nat.le_add_right_of_le (Nat.le_mul_of_pos_left _ (Nat.pow_pos (by decide)))
    rw [takeUp, if_pos small, ih h]

/-- Where no digit is lost, the parts are those of the decimal. -/
theorem parts_eq {l : NumberLiteral} (h : l.decimal.coefficient < 2 ^ 64) :
    l.parts = (l.decimal.coefficient, l.decimal.exponent) := by
  have all : l.decimal.coefficient =
      Nat.ofDigitChars 10 l.fraction (Nat.ofDigitChars 10 l.whole 0) := by
    rw [decimal, natOfDigits_eq, Nat.ofDigitChars_append]
  rw [all] at h
  have whole : Nat.ofDigitChars 10 l.whole 0 < 2 ^ 64 := by
    refine Nat.lt_of_le_of_lt ?_ h
    rw [Nat.ofDigitChars_eq_ofDigitChars_zero (l := l.fraction)]
    exact Nat.le_add_right_of_le (Nat.le_mul_of_pos_left _ (Nat.pow_pos (by decide)))
  rw [parts, takeUp_eq whole]
  simp only
  rw [takeUp_eq h, all]
  simp [decimal]

end Parts

section Scaled

variable {n significand : Nat}

theorem powerOfTen_exact (hn : n ≤ 22) :
    IsFinite (powerOfTen n) ∧ magnitude (powerOfTen n) = 10 ^ n := by
  have five : 5 ^ n < 2 ^ 53 :=
    Nat.lt_of_le_of_lt (Nat.pow_le_pow_right (by decide) hn) (by decide)
  have split : ((10 ^ n : Nat) : ℚ) / (1 : Nat) = (5 ^ n : Nat) * 2 ^ (n : Int) := by
    rw [zpow_natCast, Nat.cast_one, div_one, Nat.cast_pow, Nat.cast_pow, ← mul_pow]
    norm_num
  obtain ⟨finite, value⟩ :=
    nearestDouble_exact Nat.one_pos five (by omega) (by omega) split false
  refine ⟨finite, value.trans ?_⟩
  rw [Nat.cast_one, div_one, Nat.cast_pow, Nat.cast_ofNat]

/-- The number and the power are doubles, so only the result is rounded. -/
theorem scaled?_eq (hsignificand : significand < 2 ^ 53) {power : Int} (hpower : power.natAbs ≤ 22) :
    scaled? significand power = some (nearestDouble false (scaleByTen power significand 1).1
      (scaleByTen power significand 1).2) := by
  obtain ⟨finite, value⟩ := nearestDouble_nat hsignificand
  have signs : (false ^^ false) = false := rfl
  cases power with
  | ofNat n =>
    have hn : n ≤ 22 := hpower
    obtain ⟨finite', value'⟩ := powerOfTen_exact hn
    have product := mul_eq_nearestDouble finite finite' Nat.one_pos
      (show ((significand * 10 ^ n : Nat) : ℚ) / (1 : Nat) = _ by rw [value, value']; simp)
    have below : significand * 10 ^ n < 2 ^ 127 := by
      calc significand * 10 ^ n
        _ ≤ significand * 10 ^ 22 := Nat.mul_le_mul_left _ (Nat.pow_le_pow_right (by decide) hn)
        _ < 2 ^ 53 * 10 ^ 22 := Nat.mul_lt_mul_of_pos_right hsignificand (by decide)
        _ ≤ 2 ^ 127 := by decide
    have small : ((significand * 10 ^ n : Nat) : ℚ) / (1 : Nat) < 2 ^ (127 : Int) := by
      rw [Nat.cast_one, div_one]
      exact_mod_cast below
    obtain ⟨bounded, -⟩ := nearestDouble_near Nat.one_pos small (by decide) (by decide) false
    rw [signBit_nearestDouble, powerOfTen, signBit_nearestDouble, signs] at product
    rw [scaled?]
    simp only
    rw [if_neg (by rw [maxPower]; omega), powerOfTen, product, if_pos bounded]
    rfl
  | negSucc n =>
    have hn : n + 1 ≤ 22 := hpower
    obtain ⟨finite', value'⟩ := powerOfTen_exact hn
    have quotient := div_eq_nearestDouble finite finite' (by rw [value']; positivity)
      (Nat.pow_pos (by decide) : 0 < 10 ^ (n + 1))
      (show ((significand : Nat) : ℚ) / (10 ^ (n + 1) : Nat) = _ by rw [value, value']; simp)
    rw [signBit_nearestDouble, powerOfTen, signBit_nearestDouble, signs] at quotient
    have once : n / maxPower = 0 := Nat.div_eq_of_lt (by rw [maxPower]; omega)
    have all : n % maxPower = n := Nat.mod_eq_of_lt (by rw [maxPower]; omega)
    rw [scaled?, once, all, shrink, powerOfTen, quotient]
    simp [scaleByTen]

end Scaled

/-- The reader rounds once where the digits and the power are small. -/
theorem double?_eq_nearest {l : NumberLiteral} (digits : l.decimal.coefficient < 2 ^ 53)
    (power : l.decimal.exponent.natAbs ≤ 22) : l.double? = some l.nearest := by
  have nearest : l.nearest = nearestDouble l.negative
      (scaleByTen l.decimal.exponent l.decimal.coefficient 1).1
      (scaleByTen l.decimal.exponent l.decimal.coefficient 1).2 := rfl
  rw [double?, parts_eq (Nat.lt_trans digits (by decide))]
  simp only
  rw [scaled?_eq digits power, Option.map_some, nearest]
  cases l.negative with
  | false => rfl
  | true =>
    rw [if_pos rfl, neg_nearestDouble]
    rfl

end NumberLiteral

/-- A double survives its text if the digits have at most 53 bits and the power of ten is small. -/
theorem survivesText_of_short {x : Float} (h : IsFinite x)
    (short : ∀ l, NumberLiteral.parse? (NumberLayout.json.chars x) = some l →
      l.decimal.coefficient < 2 ^ 53 ∧ l.decimal.exponent.natAbs ≤ 22) : SurvivesText x := by
  by_cases hzero : magnitudeBits x = 0
  · rw [← ofMagnitude_bits (isNaN_of_isFinite h), hzero]
    cases signBit x <;> decide
  · obtain ⟨l, hread, -, nearest⟩ := NumberLiteral.parse?_chars h hzero
    obtain ⟨digits, power⟩ := short l hread
    rw [SurvivesText, hread, Option.bind_some, NumberLiteral.double?_eq_nearest digits power,
      nearest, Option.map_some]

/-- Rounding twice takes this double of 17 digits for the one above it. -/
example : ((NumberLiteral.parse? (NumberLayout.json.chars 31.245270191439438)).bind
    NumberLiteral.double?).map Float.toBits = some (31.24527019143944 : Float).toBits ∧
      ¬SurvivesText 31.245270191439438 := by
  decide +kernel

end CampusQuery
