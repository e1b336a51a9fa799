import Mathlib.Data.Nat.Cast.Field
import CampusQuery.Proofs.Number.Nearest
import CampusQuery.Proofs.Number.Zero

/-!
Decimals that read back. Main statement: the shortest decimal of a finite double is read as that
double.
-/

namespace CampusQuery

/-- The significand and the exponent of a finite double. -/
theorem ofFloat_of_isFinite {x : Float} (h : IsFinite x) : ∃ significand exponent,
    BinaryValue.ofFloat x = .finite (signBit x) significand exponent ∧
      Canonical significand exponent ∧
        magnitudeBits x = significand + (exponent + 1074).toNat * 2 ^ 52 := by
  unfold IsFinite at h
  simp only [BinaryValue.ofFloat, Int.ofNat_eq_natCast]
  generalize magnitudeBits x = bits at *
  rw [if_neg (by omega)]
  split
  · exact ⟨_, _, rfl, ⟨by omega, by omega, .inl rfl⟩, by omega⟩
  · exact ⟨_, _, rfl, ⟨by omega, by omega, .inr (by omega)⟩, by omega⟩

/-- A quotient that is a finite double is rounded to its bits. -/
theorem nearestBits_eq_magnitudeBits {x : Float} (h : IsFinite x) {negative : Bool}
    {significand : Nat} {exponent : Int}
    (hx : BinaryValue.ofFloat x = .finite negative significand exponent) {num den : Nat}
    (hden : 0 < den) (hq : (num : ℚ) / den = significand * 2 ^ exponent) :
    nearestBits num den = magnitudeBits x := by
  obtain ⟨_, _, hofFloat, canonical, hbits⟩ := ofFloat_of_isFinite h
  rw [hofFloat] at hx
  cases hx
  rw [nearestBits_of_canonical hden canonical hq, ← hbits]
  exact Nat.min_eq_left h.le

namespace DecimalText

/-- What the decimal stands for. -/
def value (d : DecimalText) : ℚ :=
  d.coefficient * 10 ^ d.exponent

theorem bits_eq (d : DecimalText) :
    d.bits = nearestBits (scaleByTen d.exponent d.coefficient 1).1
      (scaleByTen d.exponent d.coefficient 1).2 := rfl

theorem scaled (d : DecimalText) :
    ((scaleByTen d.exponent d.coefficient 1).1 : ℚ) / (scaleByTen d.exponent d.coefficient 1).2 =
      d.value := by
  rw [scaleByTen_div, Nat.cast_one, div_one, value]

theorem coefficient_pos {d : DecimalText} (h : d.bits ≠ 0) : 0 < d.coefficient := by
  refine Nat.pos_of_ne_zero fun hzero => h ?_
  rw [bits_eq, hzero]
  cases d.exponent <;> simp [scaleByTen, nearestBits]

theorem bits_congr {d e : DecimalText} (h : d.value = e.value) : d.bits = e.bits := by
  rw [bits_eq, bits_eq]
  apply nearestBits_congr (scaleByTen_pos _ Nat.one_pos) (scaleByTen_pos _ Nat.one_pos)
  rw [scaled, scaled, h]

theorem value_stripZeros (fuel : Nat) (d : DecimalText) : (d.stripZeros fuel).value = d.value := by
  induction fuel generalizing d with
  | zero => rfl
  | succ fuel ih =>
    rw [stripZeros]
    split
    · next h =>
      have hten : (d.coefficient : ℚ) = 10 * (d.coefficient / 10 : Nat) := by
        exact_mod_cast (by omega : d.coefficient = 10 * (d.coefficient / 10))
      rw [ih, value, value, hten, zpow_add_one₀ (by norm_num)]
      ring
    · rfl

end DecimalText

/-- The digits of a power of two below one are those of a power of five. -/
theorem value_exactDecimal (significand : Nat) (exponent : Int) :
    (exactDecimal significand exponent).value = significand * 2 ^ exponent := by
  cases exponent with
  | ofNat n => simp [exactDecimal, DecimalText.value]
  | negSucc n =>
    simp only [exactDecimal, DecimalText.value, zpow_negSucc, Nat.cast_mul, Nat.cast_pow,
      Nat.cast_ofNat]
    have : (10 : ℚ) ^ (n + 1) = 2 ^ (n + 1) * 5 ^ (n + 1) := by
      rw [← mul_pow]
      norm_num
    rw [this]
    field_simp

/-- Every decimal that is looked at reads back, and so do all digits of the double. -/
theorem bits_shortestDecimal {x : Float} (h : IsFinite x) {negative : Bool} {significand : Nat}
    {exponent : Int} (hx : BinaryValue.ofFloat x = .finite negative significand exponent)
    (tie : Tie) :
    (shortestDecimal tie (magnitudeBits x) significand exponent).bits = magnitudeBits x := by
  unfold shortestDecimal
  simp only
  rw [DecimalText.bits_congr (DecimalText.value_stripZeros _ _)]
  cases hfound : (List.range 17).findSome? _ with
  | some found =>
    obtain ⟨digits, -, hattempt⟩ := List.exists_of_findSome?_eq_some hfound
    simpa using List.find?_some hattempt
  | none =>
    rw [Option.getD_none, DecimalText.bits_eq]
    apply nearestBits_eq_magnitudeBits h hx (scaleByTen_pos _ Nat.one_pos)
    rw [DecimalText.scaled, value_exactDecimal]

/-- A finite double is made of its sign and the nearest bits. -/
theorem nearestDouble_signBit {x : Float} (h : IsFinite x) {num den : Nat}
    (hbits : nearestBits num den = magnitudeBits x) : nearestDouble (signBit x) num den = x := by
  rw [nearestDouble, hbits, ofMagnitude_bits (isNaN_of_isFinite h)]

/-- Rounding does not leave the doubles that are numbers. -/
theorem isNaN_nearestDouble (negative : Bool) (num den : Nat) :
    (nearestDouble negative num den).isNaN = false := by
  have bounded := nearestBits_le num den
  rw [isNaN_eq_false_iff, nearestDouble, magnitudeBits_ofMagnitude bounded]
  exact bounded

/-- A whole double is read from its integer, which does not tell the sign of a zero. -/
theorem alike_doubleOfInt {x : Float} (h : IsFinite x) {n : Int} (hn : wholeValue? x = some n) :
    Alike (doubleOfInt n) x := by
  obtain ⟨significand, exponent, hofFloat, -⟩ := ofFloat_of_isFinite h
  simp only [wholeValue?, hofFloat] at hn
  have hdiv := scaleByTwo_div exponent significand 1
  have hpos : 0 < (scaleByTwo exponent significand 1).2 := scaleByTwo_pos _ Nat.one_pos
  generalize scaleByTwo exponent significand 1 = scaled at *
  split at hn
  · next hmod =>
    have hwhole : ((scaled.1 / scaled.2 : Nat) : ℚ) / (1 : Nat) = significand * 2 ^ exponent := by
      rw [Nat.cast_one, div_one] at hdiv ⊢
      rw [← hdiv, Nat.cast_div (Nat.dvd_of_mod_eq_zero hmod) (by positivity)]
    have hbits := nearestBits_eq_magnitudeBits h hofFloat Nat.one_pos hwhole
    generalize scaled.1 / scaled.2 = whole at *
    cases hn
    have hnatAbs : (if signBit x = true then -Int.ofNat whole else Int.ofNat whole).natAbs =
        whole := by
      split <;> simp
    by_cases hzero : whole = 0
    · subst hzero
      refine .inr ⟨?_, hbits.symm⟩
      cases signBit x <;> decide
    · have hsign : decide ((if signBit x = true then -Int.ofNat whole else Int.ofNat whole) < 0) =
          signBit x := by
        cases signBit x
        · simp
        · simp
          omega
      refine .inl ?_
      rw [doubleOfInt, hnatAbs, hsign, nearestDouble_signBit h hbits]
  · contradiction

end CampusQuery
