import CampusQuery.Proofs.Number.Bounds
import CampusQuery.Proofs.Number.Shortest

/-!
Rounding of results. Main statements: a product and a quotient of finite doubles, and a sum of such
that are not negative, are the doubles nearest to what they are exactly.
-/

namespace CampusQuery

open Float.Model (Format UnpackedFloat totalExponent)
open Float.Model.UnpackedFloat

section Truncation

/-- The mantissa is the quotient without its fraction, which the two bits compare with a half. -/
structure Truncates (em : ExtendedMantissa) (num den : Nat) : Prop where
  mantissa : em.mantissa = num / den
  roundBit : em.roundBit = true ↔ den ≤ 2 * (num % den)
  stickyBit : em.stickyBit = true ↔ 2 * (num % den) ≠ 0 ∧ 2 * (num % den) ≠ den

variable {em : ExtendedMantissa} {num den : Nat}

theorem Truncates.roundedMantissa (h : Truncates em num den) (hden : 0 < den) :
    em.roundedMantissa = roundDiv .even num den := by
  obtain ⟨mantissa, roundBit, stickyBit⟩ := em
  obtain ⟨hmantissa, hround, hsticky⟩ := h
  simp only at hmantissa hround hsticky
  subst hmantissa
  simp only [roundDiv]
  generalize num / den = below, num % den = left at *
  cases roundBit <;> cases stickyBit <;>
    simp only [Bool.false_eq_true, false_iff, true_iff, not_and_or, not_not, not_le] at hround hsticky
  · rw [if_neg (by omega), if_pos hround]
    rfl
  · rw [if_neg (by omega), if_pos hround]
    rfl
  · rw [if_neg (by omega), if_neg (by omega)]
    rfl
  · rw [if_pos (by omega)]
    rfl

theorem Truncates.shiftRightOne (h : Truncates em num den) (hden : 0 < den) :
    Truncates em.shiftRightOne num (den * 2) := by
  obtain ⟨mantissa, roundBit, stickyBit⟩ := em
  obtain ⟨rfl, hround, hsticky⟩ := h
  have small := Nat.mod_lt num hden
  have left : num % (den * 2) = num % den + den * (num / den % 2) := Nat.mod_mul
  simp only [ExtendedMantissa.shiftRightOne]
  refine ⟨Nat.div_div_eq_div_mul _ _ _, ?_, ?_⟩
  · rcases Nat.mod_two_eq_zero_or_one (num / den) with bit | bit <;> simp only [left, bit]
    · simp; omega
    · simp; omega
  · simp only [Bool.or_eq_true, hround, hsticky]
    rcases Nat.mod_two_eq_zero_or_one (num / den) with bit | bit <;> rw [left, bit] <;> omega

theorem Truncates.shiftRight (h : Truncates em num den) (hden : 0 < den) (shift : Nat) :
    Truncates (em >>> shift) num (den * 2 ^ shift) := by
  change Truncates (shift.repeat ExtendedMantissa.shiftRightOne em) _ _
  induction shift with
  | zero => simpa [Nat.repeat] using h
  | succ shift ih =>
    rw [Nat.repeat, Nat.pow_succ, ← Nat.mul_assoc]
    exact ih.shiftRightOne (Nat.mul_pos hden (Nat.two_pow_pos shift))

theorem truncates_exact (mantissa : Nat) :
    Truncates (.ofMantissaAndAccuracy mantissa .exact) mantissa 1 := by
  refine ⟨(Nat.div_one mantissa).symm, ?_, ?_⟩ <;>
    simp [ExtendedMantissa.ofMantissaAndAccuracy, Nat.mod_one]

theorem truncates_fraction (num : Nat) (hden : 0 < den) :
    Truncates (.ofMantissaAndAccuracy (num / den) (accuracyOfFraction (num % den) den)) num den := by
  refine ⟨mantissa_ofMantissaAndAccuracy _ _, ?_, ?_⟩
  all_goals
    rw [accuracyOfFraction]
    generalize num % den = left
    by_cases exact : left = 0
    · subst exact
      simp [ExtendedMantissa.ofMantissaAndAccuracy, hden.ne']
    · rw [if_neg exact]
      rcases Nat.lt_trichotomy (2 * left) den with lt | eq | gt
      · rw [Nat.compare_eq_lt.2 lt]
        simp [ExtendedMantissa.ofMantissaAndAccuracy]
        omega
      · rw [Nat.compare_eq_eq.2 eq]
        simp [ExtendedMantissa.ofMantissaAndAccuracy]
        omega
      · rw [Nat.compare_eq_gt.2 gt]
        simp [ExtendedMantissa.ofMantissaAndAccuracy]
        omega

end Truncation
section Packing

/-- The sign of a double. -/
def signOf (negative : Bool) : Sign :=
  if negative then .negative else .positive

/-- The bits of a result, which are too large where it is packed as an infinity. -/
def Carries (negative : Bool) (bits : Nat) : UnpackedFloat → Prop
  | .zero sign => bits = 0 ∧ sign = signOf negative
  | .finite sign significand exponent _ =>
    (Canonical significand exponent ∧ bits = significand + (exponent + 1074).toNat * 2 ^ 52) ∧
      sign = signOf negative
  | _ => False

variable {negative : Bool} {bits : Nat} {u : UnpackedFloat}

theorem ofModel_pack (h : Carries negative bits u) :
    Float.ofModel (.pack u) = ofMagnitude negative (min bits (2047 * 2 ^ 52)) := by
  apply eq_of_toBits_eq
  rw [← UInt64.toNat_inj, toNat_toBits_ofMagnitude (Nat.min_le_right _ _)]
  change (pack .binary64 u).toNat = _
  by_cases finite : bits < 2047 * 2 ^ 52
  · rw [Nat.min_eq_left finite.le]
    refine toNat_pack ?_ finite.le
    cases u with
    | zero sign => exact h
    | finite sign significand exponent hpos =>
      obtain ⟨⟨⟨hlt, hleast, hnormal⟩, hbits⟩, hsign⟩ := h
      exact ⟨⟨hleast, hlt, hnormal, by omega, finite⟩, hsign⟩
    | _ => exact h.elim
  · rw [Nat.min_eq_right (Nat.le_of_not_lt finite)]
    cases u with
    | finite sign significand exponent hpos =>
      obtain ⟨⟨⟨hlt, hleast, hnormal⟩, hbits⟩, rfl⟩ := h
      have hbias : ((Format.binary64.exponentBias : Nat) : Int) = 1023 := rfl
      have hwidth : ((Format.binary64.mantissaBitsWithoutImplicit : Nat) : Int) = 52 := rfl
      have hfields : 2 ^ Format.binary64.exponentBits = 2048 := rfl
      rw [UnpackedFloat.pack]
      simp only [hbias, hwidth, hfields]
      rw [if_pos (by omega)]
      cases negative <;> rfl
    | zero sign =>
      have := h.1
      omega
    | _ => exact h.elim

end Packing

section Rounding

variable {num den : Nat} {exponent : Int} {accuracy : Accuracy}

/-- Where the quotient has 53 bits or the exponent is the least one, the exponent that it is shifted
to is the one of the nearest double. -/
theorem unitExponent_scaleByTwo (hnum : 0 < num) (hden : 0 < den)
    (enough : 2 ^ 52 ≤ num / den ∨ exponent ≤ -1074) :
    unitExponent (scaleByTwo exponent num den).1 (scaleByTwo exponent num den).2 =
      Format.binary64.targetExponent (totalExponent (num / den) exponent) := by
  have target : Format.binary64.targetExponent (totalExponent (num / den) exponent) =
      max ((num / den).log2 + 1 + exponent - 53) (-1074) := rfl
  have hbottom : 0 < (scaleByTwo exponent num den).2 := scaleByTwo_pos _ hden
  have value := scaleByTwo_div exponent num den
  have hpos : (0 : ℚ) < num / den * 2 ^ exponent := by positivity
  have htop : 0 < (scaleByTwo exponent num den).1 := by
    refine Nat.pos_of_ne_zero fun hzero => ?_
    rw [hzero, Nat.cast_zero, zero_div] at value
    exact hpos.ne value
  have above : (num : ℚ) / den * 2 ^ exponent < 2 ^ ((num / den).log2 + 1 + exponent) := by
    have hlt : num < 2 ^ ((num / den).log2 + 1) * den :=
      (Nat.div_lt_iff_lt_mul hden).1 Nat.lt_log2_self
    rw [zpow_add₀ two_ne_zero]
    gcongr
    rw [div_lt_iff₀ (by positivity)]
    exact_mod_cast hlt
  rw [lt_two_zpow_iff hpos] at above
  rw [unitExponent_eq htop hbottom, value, target]
  rcases Nat.eq_zero_or_pos (num / den) with hzero | hwhole
  · rw [hzero, Nat.log2_zero] at above ⊢
    omega
  · have below : (2 : ℚ) ^ ((num / den).log2 + exponent) ≤ num / den * 2 ^ exponent := by
      have hle : 2 ^ (num / den).log2 * den ≤ num :=
        (Nat.le_div_iff_mul_le hden).1 (Nat.log2_self_le hwhole.ne')
      rw [zpow_add₀ two_ne_zero]
      gcongr
      rw [le_div_iff₀ (by positivity)]
      exact_mod_cast hle
    rw [two_zpow_le_iff hpos] at below
    omega

end Rounding

section Core

variable {num den : Nat} {exponent : Int} {accuracy : Accuracy}

/-- The first shift leaves the quotient in units of the nearest double, rounded to one of them. -/
theorem exists_shiftToTargetExponent (hnum : 0 < num) (hden : 0 < den)
    (enough : 2 ^ 52 ≤ num / den ∨ exponent ≤ -1074)
    (held : Truncates (.ofMantissaAndAccuracy (num / den) accuracy) num den) :
    ∃ mantissa last, nearestBits (scaleByTwo exponent num den).1 (scaleByTwo exponent num den).2 =
        min (mantissa + (last + 1074).toNat * 2 ^ 52) (2047 * 2 ^ 52) ∧
      mantissa ≤ 2 ^ 53 ∧ -1074 ≤ last ∧ (last = -1074 ∨ 2 ^ 52 ≤ mantissa) ∧
      (shiftToTargetExponent .binary64 (num / den) exponent accuracy).1.roundedMantissa = mantissa ∧
        (shiftToTargetExponent .binary64 (num / den) exponent accuracy).2 = last := by
  have unit := unitExponent_scaleByTwo hnum hden enough
  have target : Format.binary64.targetExponent (totalExponent (num / den) exponent) =
      max ((num / den).log2 + 1 + exponent - 53) (-1074) := rfl
  have hlog : 2 ^ 52 ≤ num / den → 52 ≤ (num / den).log2 := fun hle => (Nat.le_log2 (by omega)).2 hle
  rw [shiftToTargetExponent, shiftToExponent]
  generalize Format.binary64.targetExponent (totalExponent (num / den) exponent) = last at *
  have low : exponent ≤ last := by
    rcases enough with wide | least
    · have := hlog wide
      omega
    · omega
  obtain ⟨shift, rfl⟩ := Int.le.dest low
  rw [show (exponent + (shift : Int) - exponent).toNat = shift by omega]
  have hpower : 0 < 2 ^ shift := Nat.two_pow_pos shift
  have hdivisor : 0 < den * 2 ^ shift := Nat.mul_pos hden hpower
  have shifted := held.shiftRight hden shift
  have whole : num / (den * 2 ^ shift) = num / den / 2 ^ shift :=
    (Nat.div_div_eq_div_mul _ _ _).symm
  have above : num / (den * 2 ^ shift) < 2 ^ 53 := by
    rw [whole, Nat.div_lt_iff_lt_mul hpower, ← Nat.pow_add]
    exact Nat.lt_of_lt_of_le Nat.lt_log2_self (Nat.pow_le_pow_right two_pos (by omega))
  have below : exponent + shift ≠ -1074 → 2 ^ 52 * (den * 2 ^ shift) ≤ num := by
    intro more
    have hpos : num / den ≠ 0 := by
      intro hzero
      rw [hzero, Nat.log2_zero] at target
      omega
    rw [← Nat.le_div_iff_mul_le hdivisor, whole, Nat.le_div_iff_mul_le hpower, ← Nat.pow_add]
    exact Nat.le_trans (Nat.pow_le_pow_right two_pos (by omega)) (Nat.log2_self_le hpos)
  have bits : nearestBits (scaleByTwo exponent num den).1 (scaleByTwo exponent num den).2 =
      min (roundDiv .even num (den * 2 ^ shift) + (exponent + shift + 1074).toNat * 2 ^ 52)
        (2047 * 2 ^ 52) := by
    have hbottom : 0 < (scaleByTwo exponent num den).2 := scaleByTwo_pos _ hden
    have htop : 0 < (scaleByTwo exponent num den).1 := by
      cases exponent with
      | ofNat n => exact Nat.mul_pos hnum (Nat.two_pow_pos n)
      | negSucc n => exact hnum
    rw [nearestBits_eq htop unit, roundDiv_congr .even (scaleByTwo_pos _ hbottom) hdivisor]
    rw [scaleByTwo_div, scaleByTwo_div, mul_assoc, ← zpow_add₀ two_ne_zero]
    rw [show exponent + -(exponent + (shift : Int)) = -(shift : Int) by omega, zpow_neg,
      zpow_natCast, Nat.cast_mul, Nat.cast_pow, Nat.cast_ofNat, div_mul_eq_div_div,
      div_eq_mul_inv (num / den : ℚ)]
  refine ⟨_, _, bits, ?_, by omega, ?_, shifted.roundedMantissa hdivisor, rfl⟩
  · rw [← shifted.roundedMantissa hdivisor]
    refine Nat.le_trans (roundedMantissa_le _) ?_
    rw [shifted.mantissa]
    exact above
  · by_cases least : exponent + shift = -1074
    · exact .inl least
    · exact .inr (le_roundDiv .even hdivisor (below least))

/-- A rounded mantissa is shifted once more if it has reached 2^53. -/
theorem exists_canonical {mantissa : Nat} (size : mantissa ≤ 2 ^ 53) (least : -1074 ≤ exponent)
    (normal : exponent = -1074 ∨ 2 ^ 52 ≤ mantissa) :
    ∃ significand last, Canonical significand last ∧
      mantissa + (exponent + 1074).toNat * 2 ^ 52 = significand + (last + 1074).toNat * 2 ^ 52 ∧
      (shiftToTargetExponent .binary64 mantissa exponent .exact).1.mantissa = significand ∧
        (shiftToTargetExponent .binary64 mantissa exponent .exact).2 = last := by
  have target : Format.binary64.targetExponent (totalExponent mantissa exponent) =
      max (mantissa.log2 + 1 + exponent - 53) (-1074) := rfl
  rw [shiftToTargetExponent, shiftToExponent, target]
  simp only [mantissa_shiftRight, mantissa_ofMantissaAndAccuracy]
  rcases Nat.lt_or_eq_of_le size with hlt | rfl
  · have hlog : mantissa.log2 ≤ 52 := by
      rcases Nat.eq_zero_or_pos mantissa with rfl | hpos
      · exact Nat.zero_le 52
      · exact Nat.le_of_lt_succ ((Nat.log2_lt hpos.ne').2 hlt)
    rw [show (max (mantissa.log2 + 1 + exponent - 53) (-1074) - exponent).toNat = 0 by omega]
    exact ⟨mantissa, exponent, ⟨hlt, least, normal⟩, rfl, by simp, by simp⟩
  · have hlog : (2 ^ 53 : Nat).log2 = 53 := Nat.log2_two_pow
    rw [hlog, show (max (((53 : Nat) : Int) + 1 + exponent - 53) (-1074) - exponent).toNat = 1 by
      omega]
    exact ⟨2 ^ 52, exponent + 1, ⟨by decide, by omega, .inr (Nat.le_refl _)⟩, by omega, by decide,
      rfl⟩

theorem ofModel_roundWithAccuracy (hnum : 0 < num) (hden : 0 < den)
    (enough : 2 ^ 52 ≤ num / den ∨ exponent ≤ -1074)
    (held : Truncates (.ofMantissaAndAccuracy (num / den) accuracy) num den) (negative : Bool) :
    Float.ofModel (.pack (roundWithAccuracy .binary64 (signOf negative) (num / den) exponent
        accuracy)) =
      nearestDouble negative (scaleByTwo exponent num den).1 (scaleByTwo exponent num den).2 := by
  obtain ⟨mantissa, last, bits, size, least, normal, hmantissa, hlast⟩ :=
    exists_shiftToTargetExponent hnum hden enough held
  rw [nearestDouble, bits]
  apply ofModel_pack
  rw [roundWithAccuracy]
  generalize shiftToTargetExponent .binary64 (num / den) exponent accuracy = first at *
  obtain ⟨em, shifted⟩ := first
  simp only at hmantissa hlast ⊢
  generalize em.roundedMantissa = rounded at *
  subst hmantissa hlast
  obtain ⟨significand, last, canonical, same, hsignificand, hlast⟩ :=
    exists_canonical size least normal
  rw [same]
  generalize shiftToTargetExponent .binary64 rounded shifted .exact = second at *
  subst hsignificand hlast
  split
  · next hzero =>
    have := canonical.normal
    exact ⟨by omega, rfl⟩
  · exact ⟨⟨canonical, rfl⟩, rfl⟩

theorem ofModel_roundWithAccuracy_exact {mantissa : Nat} (hpos : 0 < mantissa)
    (enough : 2 ^ 52 ≤ mantissa ∨ exponent ≤ -1074) (negative : Bool) :
    Float.ofModel (.pack (roundWithAccuracy .binary64 (signOf negative) mantissa exponent .exact)) =
      nearestDouble negative (scaleByTwo exponent mantissa 1).1 (scaleByTwo exponent mantissa 1).2 := by
  have held : Truncates (.ofMantissaAndAccuracy (mantissa / 1) .exact) mantissa 1 := by
    rw [Nat.div_one]
    exact truncates_exact mantissa
  have rounded := ofModel_roundWithAccuracy hpos Nat.one_pos (by rwa [Nat.div_one]) held negative
  rwa [Nat.div_one] at rounded

end Core

section Values

/-- The size of a finite double. -/
def magnitude (x : Float) : ℚ :=
  match BinaryValue.ofFloat x with
  | .finite _ significand exponent => significand * 2 ^ exponent
  | _ => 0

variable {x : Float} {significand : Nat} {exponent : Int}

/-- The bits of a double tell its value, also where a rounded mantissa has reached 2^53. -/
theorem magnitude_of_bits (h : IsFinite x) (size : significand ≤ 2 ^ 53) (least : -1074 ≤ exponent)
    (normal : exponent = -1074 ∨ 2 ^ 52 ≤ significand)
    (bits : magnitudeBits x = significand + (exponent + 1074).toNat * 2 ^ 52) :
    magnitude x = significand * 2 ^ exponent := by
  obtain ⟨significand', exponent', hofFloat, ⟨hlt, hleast, hnormal⟩, bits'⟩ := ofFloat_of_isFinite h
  rw [magnitude, hofFloat]
  dsimp only
  rcases Nat.lt_or_eq_of_le size with hlt' | rfl
  · obtain rfl : exponent' = exponent := by omega
    obtain rfl : significand' = significand := by omega
    rfl
  · obtain rfl : exponent' = exponent + 1 := by omega
    obtain rfl : significand' = 2 ^ 52 := by omega
    rw [zpow_add_one₀ two_ne_zero]
    push_cast
    ring

theorem unpack_of_isFinite (h : IsFinite x) :
    magnitude x = 0 ∧ x.toModel.unpack = .zero (signOf (signBit x)) ∨
      ∃ significand exponent hpos,
        x.toModel.unpack = .finite (signOf (signBit x)) significand exponent hpos ∧
          Canonical significand exponent ∧ magnitude x = significand * 2 ^ exponent := by
  have bits := unpacks x
  have finite := h
  rw [IsFinite] at h
  cases hx : x.toModel.unpack with
  | notANumber =>
    rw [hx, Unpacks] at bits
    omega
  | infinity sign =>
    rw [hx, Unpacks] at bits
    omega
  | zero sign =>
    rw [hx] at bits
    obtain ⟨hbits, rfl⟩ := bits
    refine .inl ⟨?_, rfl⟩
    have bits : magnitudeBits x = 0 + ((-1074 : Int) + 1074).toNat * 2 ^ 52 := hbits
    rw [magnitude_of_bits finite (Nat.zero_le _) (Int.le_refl _) (.inl rfl) bits, Nat.cast_zero,
      zero_mul]
  | finite sign significand exponent hpos =>
    rw [hx] at bits
    obtain ⟨⟨hleast, hlt, hnormal, hbits, -⟩, rfl⟩ := bits
    exact .inr ⟨significand, exponent, hpos, rfl, ⟨hlt, hleast, hnormal⟩,
      magnitude_of_bits finite hlt.le hleast hnormal (by omega)⟩

theorem nearestDouble_congr (negative : Bool) {num den num' den' : Nat} (hden : 0 < den)
    (hden' : 0 < den') (h : (num : ℚ) / den = num' / den') :
    nearestDouble negative num den = nearestDouble negative num' den' := by
  rw [nearestDouble, nearestDouble, nearestBits_congr hden hden' h]

theorem ofModel_zero (negative : Bool) {num den : Nat} (hden : 0 < den) (h : (num : ℚ) / den = 0) :
    Float.ofModel (.pack (.zero (signOf negative))) = nearestDouble negative num den := by
  have hnum : num = 0 := by simpa [hden.ne'] using h
  rw [hnum, nearestDouble, nearestBits, if_pos rfl]
  have packed := ofModel_pack (show Carries negative 0 (.zero (signOf negative)) from ⟨rfl, rfl⟩)
  rwa [Nat.zero_min] at packed

/-- A double is the nearest one to its own value. -/
theorem ofModel_unpack (hx : IsFinite x) {num den : Nat} (hden : 0 < den)
    (h : (num : ℚ) / den = magnitude x) :
    Float.ofModel (.pack x.toModel.unpack) = nearestDouble (signBit x) num den := by
  obtain ⟨zero, hunpack⟩ | ⟨m, e, pos, hunpack, canonical, value⟩ := unpack_of_isFinite hx
  · rw [hunpack]
    exact ofModel_zero (signBit x) hden (h.trans zero)
  · rw [hunpack, nearestDouble, nearestBits_of_canonical hden canonical (h.trans value)]
    exact ofModel_pack ⟨⟨canonical, rfl⟩, rfl⟩

end Values

section Operations

variable {x y : Float} {num den : Nat}

theorem two_zpow_of_shift {exponent least : Int} {shift : Nat} (h : exponent = shift + least) :
    (2 : ℚ) ^ exponent = 2 ^ shift * 2 ^ least := by
  rw [h, zpow_add₀ two_ne_zero, zpow_natCast]

theorem two_pow_le_shifted {n width shift : Nat} (hn : 0 < n) (h : width ≤ n.log2 + shift) :
    2 ^ width ≤ n * 2 ^ shift := by
  calc 2 ^ width
    _ ≤ 2 ^ (n.log2 + shift) := Nat.pow_le_pow_right two_pos h
    _ = 2 ^ n.log2 * 2 ^ shift := Nat.pow_add 2 _ _
    _ ≤ n * 2 ^ shift := Nat.mul_le_mul_right _ (Nat.log2_self_le hn.ne')

/-- A product of doubles is rounded once. -/
theorem mul_eq_nearestDouble (hx : IsFinite x) (hy : IsFinite y) (hden : 0 < den)
    (h : (num : ℚ) / den = magnitude x * magnitude y) :
    x * y = nearestDouble (signBit x ^^ signBit y) num den := by
  change Float.ofModel (.pack (mul .binary64 x.toModel.unpack y.toModel.unpack)) = _
  have signs : signOf (signBit x) * signOf (signBit y) = signOf (signBit x ^^ signBit y) := by
    cases signBit x <;> cases signBit y <;> rfl
  obtain ⟨zero, hunpack⟩ | ⟨m₁, e₁, pos₁, hunpack, canonical₁, value₁⟩ := unpack_of_isFinite hx <;>
    obtain ⟨zero', hunpack'⟩ | ⟨m₂, e₂, pos₂, hunpack', canonical₂, value₂⟩ := unpack_of_isFinite hy
  · rw [hunpack, hunpack', mul, signs]
    exact ofModel_zero _ hden (by rw [h, zero, zero_mul])
  · rw [hunpack, hunpack', mul, signs]
    exact ofModel_zero _ hden (by rw [h, zero, zero_mul])
  · rw [hunpack, hunpack', mul, signs]
    exact ofModel_zero _ hden (by rw [h, zero', mul_zero])
  · have enough : 2 ^ 52 ≤ m₁ * m₂ ∨ e₁ + e₂ ≤ -1074 := by
      rcases canonical₁.normal with least | wide
      · rcases canonical₂.normal with least' | wide'
        · exact .inr (by omega)
        · exact .inl (Nat.le_trans wide' (Nat.le_mul_of_pos_left _ pos₁))
      · exact .inl (Nat.le_trans wide (Nat.le_mul_of_pos_right _ pos₂))
    rw [hunpack, hunpack', mul, signs]
    refine (ofModel_roundWithAccuracy_exact (Nat.mul_pos pos₁ pos₂) enough _).trans
      (nearestDouble_congr _ (scaleByTwo_pos _ Nat.one_pos) hden ?_)
    rw [scaleByTwo_div, h, value₁, value₂, Nat.cast_one, div_one, Nat.cast_mul,
      zpow_add₀ two_ne_zero]
    ring

/-- A quotient of doubles is rounded once. -/
theorem div_eq_nearestDouble (hx : IsFinite x) (hy : IsFinite y) (hzero : magnitude y ≠ 0)
    (hden : 0 < den) (h : (num : ℚ) / den = magnitude x / magnitude y) :
    x / y = nearestDouble (signBit x ^^ signBit y) num den := by
  change Float.ofModel (.pack (div .binary64 x.toModel.unpack y.toModel.unpack)) = _
  have signs : signOf (signBit x) / signOf (signBit y) = signOf (signBit x ^^ signBit y) := by
    cases signBit x <;> cases signBit y <;> rfl
  obtain ⟨zero, -⟩ | ⟨m₂, e₂, pos₂, hunpack', canonical₂, value₂⟩ := unpack_of_isFinite hy
  · exact absurd zero hzero
  obtain ⟨zero, hunpack⟩ | ⟨m₁, e₁, pos₁, hunpack, canonical₁, value₁⟩ := unpack_of_isFinite hx
  · rw [hunpack, hunpack', div, signs]
    exact ofModel_zero _ hden (by rw [h, zero, zero_div])
  · have target : min (e₁ - e₂)
        (Format.binary64.targetExponent (totalExponent m₁ e₁ - totalExponent m₂ e₂)) =
          min (e₁ - e₂) (max (m₁.log2 + 1 + e₁ - (m₂.log2 + 1 + e₂) - 53) (-1074)) := rfl
    rw [hunpack, hunpack', div, signs, divCore]
    simp only [Nat.shiftLeft_eq]
    generalize min (e₁ - e₂) (Format.binary64.targetExponent _) = last at *
    generalize hshift : (e₁ - e₂ - last).toNat = shift
    have enough : 2 ^ 52 ≤ m₁ * 2 ^ shift / m₂ ∨ last ≤ -1074 := by
      by_cases least : last ≤ -1074
      · exact .inr least
      refine .inl ((Nat.le_div_iff_mul_le pos₂).2 ?_)
      calc 2 ^ 52 * m₂
        _ ≤ 2 ^ 52 * 2 ^ (m₂.log2 + 1) := Nat.mul_le_mul_left _ Nat.lt_log2_self.le
        _ = 2 ^ (52 + (m₂.log2 + 1)) := (Nat.pow_add 2 _ _).symm
        _ ≤ m₁ * 2 ^ shift := two_pow_le_shifted pos₁ (by omega)
    refine (ofModel_roundWithAccuracy (Nat.mul_pos pos₁ (Nat.two_pow_pos shift)) pos₂ enough
      (truncates_fraction _ pos₂) _).trans ?_
    refine nearestDouble_congr _ (scaleByTwo_pos _ pos₂) hden ?_
    have scale := two_zpow_of_shift (show e₁ = shift + (last + e₂) by omega)
    have filled : (m₂ : ℚ) ≠ 0 := by positivity
    rw [scaleByTwo_div, h, value₁, value₂, scale, zpow_add₀ two_ne_zero, Nat.cast_mul, Nat.cast_pow,
      Nat.cast_ofNat]
    field_simp

/-- A value is written with enough bits before it is rounded. -/
theorem ofModel_round {mantissa : Nat} {exponent : Int} (hpos : 0 < mantissa) (negative : Bool) :
    Float.ofModel (.pack (round .binary64 (signOf negative) mantissa exponent)) =
      nearestDouble negative (scaleByTwo exponent mantissa 1).1 (scaleByTwo exponent mantissa 1).2 := by
  have target : Format.binary64.targetExponent (totalExponent mantissa exponent) =
      max (mantissa.log2 + 1 + exponent - 53) (-1074) := rfl
  rw [UnpackedFloat.round, decreaseExponent]
  simp only [Nat.shiftLeft_eq]
  generalize Format.binary64.targetExponent (totalExponent mantissa exponent) = last at *
  generalize hshift : (exponent - last).toNat = shift
  have enough : 2 ^ 52 ≤ mantissa * 2 ^ shift ∨ exponent - shift ≤ -1074 := by
    by_cases least : exponent - shift ≤ -1074
    · exact .inr least
    exact .inl (two_pow_le_shifted hpos (by omega))
  refine (ofModel_roundWithAccuracy_exact (Nat.mul_pos hpos (Nat.two_pow_pos shift)) enough _).trans
    (nearestDouble_congr _ (scaleByTwo_pos _ Nat.one_pos) (scaleByTwo_pos _ Nat.one_pos) ?_)
  have scale := two_zpow_of_shift (show exponent = shift + (exponent - shift) by omega)
  rw [scaleByTwo_div, scaleByTwo_div, scale, Nat.cast_mul, Nat.cast_pow, Nat.cast_ofNat]
  ring

/-- A sum of doubles that are not negative is rounded once. -/
theorem add_eq_nearestDouble (hx : IsFinite x) (hy : IsFinite y) (positive : signBit x = false)
    (positive' : signBit y = false) (hden : 0 < den)
    (h : (num : ℚ) / den = magnitude x + magnitude y) :
    x + y = nearestDouble false num den := by
  change Float.ofModel (.pack (add .binary64 x.toModel.unpack y.toModel.unpack)) = _
  obtain ⟨zero, hunpack⟩ | ⟨m₁, e₁, pos₁, hunpack, canonical₁, value₁⟩ := unpack_of_isFinite hx
  · obtain ⟨zero', hunpack'⟩ | ⟨m₂, e₂, pos₂, hunpack', -⟩ := unpack_of_isFinite hy
    · rw [hunpack, hunpack', positive, positive']
      exact ofModel_zero false hden (by rw [h, zero, zero', add_zero])
    · have rounded := ofModel_unpack hy hden (by rw [h, zero, zero_add])
      rw [hunpack', positive'] at rounded
      rw [hunpack, hunpack', positive']
      exact rounded
  · obtain ⟨zero', hunpack'⟩ | ⟨m₂, e₂, pos₂, hunpack', canonical₂, value₂⟩ := unpack_of_isFinite hy
    · have rounded := ofModel_unpack hx hden (by rw [h, zero', add_zero])
      rw [hunpack, positive] at rounded
      rw [hunpack, hunpack', positive]
      exact rounded
    · rw [hunpack, hunpack', positive, positive', add]
      simp only [decreaseExponent, Nat.shiftLeft_eq]
      generalize hleast : min e₁ e₂ = least
      generalize hshift : (e₁ - least).toNat = shift
      generalize hshift' : (e₂ - least).toNat = shift'
      have total : (signOf false).apply ((m₁ * 2 ^ shift : Nat) : Int) +
          (signOf false).apply ((m₂ * 2 ^ shift' : Nat) : Int) =
            ((m₁ * 2 ^ shift + m₂ * 2 ^ shift' : Nat) : Int) := (Int.natCast_add _ _).symm
      have pos : 0 < m₁ * 2 ^ shift + m₂ * 2 ^ shift' :=
        Nat.add_pos_left (Nat.mul_pos pos₁ (Nat.two_pow_pos shift)) _
      rw [total, UnpackedFloat.normalize, Int.compare_eq_gt.2 (by omega)]
      dsimp only
      rw [Int.toNat_natCast]
      refine (ofModel_round pos false).trans
        (nearestDouble_congr _ (scaleByTwo_pos _ Nat.one_pos) hden ?_)
      rw [scaleByTwo_div, h, value₁, value₂,
        two_zpow_of_shift (show e₁ = shift + least by omega),
        two_zpow_of_shift (show e₂ = shift' + least by omega)]
      push_cast
      ring

end Operations

end CampusQuery
