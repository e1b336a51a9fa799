import Mathlib
import CampusQuery.Number.Binary

/-!
Doubles as signed bit patterns. Main statements: doubles that are numbers compare as their signed
bits do, and a double keeps the bits it is made of.
-/

namespace CampusQuery

open Float.Model (Format UnpackedFloat)
open Float.Model.UnpackedFloat

section Fields

theorem toNat_unpackMantissa (b : BitVec Format.binary64.numBits) :
    (unpackMantissa b).toNat = b.toNat % 2 ^ 52 := by
  simp [unpackMantissa, Nat.shiftRight_eq_div_pow]

theorem toNat_unpackExponent (b : BitVec Format.binary64.numBits) :
    (unpackExponent b).toNat = b.toNat / 2 ^ 52 % 2 ^ 11 := by
  simp [unpackExponent, Nat.shiftRight_eq_div_pow]

theorem toNat_unpackSign (b : BitVec Format.binary64.numBits) :
    (unpackSign b).toNat = b.toNat / 2 ^ 63 := by
  have hlt : b.toNat < 2 ^ 64 := b.isLt
  simp [unpackSign, Nat.shiftRight_eq_div_pow]
  omega

theorem toNat_packComponents (sign : Sign) (exponent : BitVec 11) (fraction : BitVec 52) :
    (packComponents .binary64 sign exponent fraction).toNat =
      sign.toBitVec.toNat * 2 ^ 63 + (exponent.toNat * 2 ^ 52 + fraction.toNat) := by
  have hexponent := exponent.isLt
  have hfraction := fraction.isLt
  simp only [packComponents, BitVec.toNat_append]
  rw [← Nat.shiftLeft_add_eq_or_of_lt hexponent, ← Nat.shiftLeft_add_eq_or_of_lt hfraction]
  simp [Nat.shiftLeft_eq]
  omega

end Fields

/-- What an unpacked double says of the sign and the other bits. -/
def Unpacks (negative : Bool) (magnitude : Nat) : UnpackedFloat → Prop
  | .notANumber => 2047 * 2 ^ 52 < magnitude
  | .infinity sign => magnitude = 2047 * 2 ^ 52 ∧ sign = if negative then .negative else .positive
  | .zero sign => magnitude = 0 ∧ sign = if negative then .negative else .positive
  | .finite sign significand exponent _ =>
    (-1074 ≤ exponent ∧ significand < 2 ^ 53 ∧ (exponent = -1074 ∨ 2 ^ 52 ≤ significand) ∧
      (magnitude : Int) = (exponent + 1074) * 2 ^ 52 + significand ∧ magnitude < 2047 * 2 ^ 52) ∧
      sign = if negative then .negative else .positive

theorem sign_ofBitVec_unpackSign (b : BitVec Format.binary64.numBits) :
    Sign.ofBitVec (unpackSign b) =
      if b.toNat / 2 ^ 63 = 1 then Sign.negative else Sign.positive := by
  have hlt : b.toNat < 2 ^ 64 := b.isLt
  simp only [Sign.ofBitVec, ← BitVec.toNat_inj, toNat_unpackSign]
  by_cases h : b.toNat / 2 ^ 63 = 1
  · rw [h]
    rfl
  · have hzero : b.toNat / 2 ^ 63 = 0 := by omega
    rw [hzero]
    rfl

theorem unpacks_unpack (b : BitVec Format.binary64.numBits) :
    Unpacks (b.toNat / 2 ^ 63 = 1) (b.toNat % 2 ^ 63) (unpack .binary64 b) := by
  have hlt : b.toNat < 2 ^ 64 := b.isLt
  have hbias : ((Format.binary64.exponentBias : Nat) : Int) = 1023 := rfl
  have hwidth : ((Format.binary64.mantissaBitsWithoutImplicit : Nat) : Int) = 52 := rfl
  have full : unpackExponent b = -1#_ ↔ b.toNat / 2 ^ 52 % 2 ^ 11 = 2047 := by
    rw [← BitVec.toNat_inj, toNat_unpackExponent]
    rfl
  have empty : unpackExponent b = 0#_ ↔ b.toNat / 2 ^ 52 % 2 ^ 11 = 0 := by
    rw [← BitVec.toNat_inj, toNat_unpackExponent]
    rfl
  have whole : unpackMantissa b = 0#_ ↔ b.toNat % 2 ^ 52 = 0 := by
    rw [← BitVec.toNat_inj, toNat_unpackMantissa]
    rfl
  have hsign := sign_ofBitVec_unpackSign b
  rw [UnpackedFloat.unpack]
  split
  · next hfull =>
    rw [full] at hfull
    split
    · next hwhole =>
      rw [whole] at hwhole
      exact ⟨by omega, by simp [hsign]⟩
    · next hwhole =>
      rw [whole] at hwhole
      change 2047 * 2 ^ 52 < b.toNat % 2 ^ 63
      omega
  · next hfull =>
    rw [full] at hfull
    split
    · next hempty =>
      rw [empty] at hempty
      split
      · next hwhole =>
        rw [whole] at hwhole
        exact ⟨by omega, by simp [hsign]⟩
      · refine ⟨?_, by simp [hsign]⟩
        rw [toNat_unpackExponent, toNat_unpackMantissa, hbias, hwidth]
        omega
    · next hempty =>
      rw [empty] at hempty
      have hsignificand : (1#1 ++ unpackMantissa b).toNat = 2 ^ 52 + b.toNat % 2 ^ 52 := by
        rw [BitVec.toNat_append, ← Nat.shiftLeft_add_eq_or_of_lt (unpackMantissa b).isLt,
          toNat_unpackMantissa]
        rfl
      refine ⟨?_, by simp [hsign]⟩
      rw [toNat_unpackExponent, hsignificand, hbias, hwidth]
      omega

theorem toNat_pack {negative : Bool} {magnitude : Nat} {u : UnpackedFloat}
    (h : Unpacks negative magnitude u) (hle : magnitude ≤ 2047 * 2 ^ 52) :
    (pack .binary64 u).toNat = magnitude + if negative then 2 ^ 63 else 0 := by
  have hbias : ((Format.binary64.exponentBias : Nat) : Int) = 1023 := rfl
  have hwidth : ((Format.binary64.mantissaBitsWithoutImplicit : Nat) : Int) = 52 := rfl
  have hbits : Format.binary64.mantissaBits = 53 := rfl
  have hfields : 2 ^ Format.binary64.exponentBits = 2048 := rfl
  cases u with
  | notANumber =>
    have : 2047 * 2 ^ 52 < magnitude := h
    omega
  | infinity sign =>
    obtain ⟨rfl, rfl⟩ := h
    cases negative <;> rfl
  | zero sign =>
    obtain ⟨rfl, rfl⟩ := h
    cases negative <;> rfl
  | finite sign significand exponent hpos =>
    obtain ⟨⟨hexponent, hsignificand, hnormal, hmagnitude, hfinite⟩, rfl⟩ := h
    have hsign : (if negative then Sign.negative else Sign.positive).toBitVec.toNat * 2 ^ 63 =
        if negative then 2 ^ 63 else 0 := by
      cases negative <;> rfl
    have hlog : significand.log2 + 1 = 53 ↔ 2 ^ 52 ≤ significand := by
      rw [← Nat.le_log2 (by omega)]
      have := (Nat.log2_lt (by omega : significand ≠ 0)).2 hsignificand
      omega
    rw [UnpackedFloat.pack]
    simp only [hbits, hbias, hwidth, hfields, hlog]
    rw [if_neg (by omega)]
    split
    · rw [toNat_packComponents, hsign]
      simp only [BitVec.toNat_ofNat]
      omega
    · rw [toNat_packComponents, hsign]
      simp only [BitVec.toNat_ofNat]
      omega

/-- The bits with their sign, a number that grows with the double. -/
def signedBits (negative : Bool) (magnitude : Nat) : Int :=
  if negative then -(magnitude : Int) else magnitude

/-- Finite doubles of one sign compare in their exponents first, and that is how their bits do. -/
theorem compare_finite {e₁ e₂ : Int} {s₁ s₂ m₁ m₂ : Nat}
    (h₁ : -1074 ≤ e₁ ∧ s₁ < 2 ^ 53 ∧ (e₁ = -1074 ∨ 2 ^ 52 ≤ s₁) ∧
      (m₁ : Int) = (e₁ + 1074) * 2 ^ 52 + s₁ ∧ m₁ < 2047 * 2 ^ 52)
    (h₂ : -1074 ≤ e₂ ∧ s₂ < 2 ^ 53 ∧ (e₂ = -1074 ∨ 2 ^ 52 ≤ s₂) ∧
      (m₂ : Int) = (e₂ + 1074) * 2 ^ 52 + s₂ ∧ m₂ < 2047 * 2 ^ 52) :
    (compare e₁ e₂).then (compare s₁ s₂) = compare (m₁ : Int) m₂ := by
  rcases Int.lt_trichotomy e₁ e₂ with hlt | rfl | hgt
  · rw [Int.compare_eq_lt.2 hlt, Int.compare_eq_lt.2 (by omega : (m₁ : Int) < m₂)]
    rfl
  · rw [Int.compare_eq_eq.2 rfl, Ordering.then]
    rcases Nat.lt_trichotomy s₁ s₂ with hlt | rfl | hgt
    · rw [Nat.compare_eq_lt.2 hlt, Int.compare_eq_lt.2 (by omega : (m₁ : Int) < m₂)]
    · rw [Nat.compare_eq_eq.2 rfl, Int.compare_eq_eq.2 (by omega : (m₁ : Int) = m₂)]
    · rw [Nat.compare_eq_gt.2 hgt, Int.compare_eq_gt.2 (by omega : (m₂ : Int) < m₁)]
  · rw [Int.compare_eq_gt.2 hgt, Int.compare_eq_gt.2 (by omega : (m₂ : Int) < m₁)]
    rfl

/-- Unpacked doubles that are numbers compare as their signed bits do. -/
theorem compare_unpacked {n₁ n₂ : Bool} {m₁ m₂ : Nat} {u v : UnpackedFloat}
    (hu : Unpacks n₁ m₁ u) (hv : Unpacks n₂ m₂ v) (h₁ : m₁ ≤ 2047 * 2 ^ 52)
    (h₂ : m₂ ≤ 2047 * 2 ^ 52) :
    u.compare v = some (compare (signedBits n₁ m₁) (signedBits n₂ m₂)) := by
  cases u <;> cases v <;> simp only [Unpacks] at hu hv
  case finite.finite s₁ f₁ e₁ hpos₁ s₂ f₂ e₂ hpos₂ =>
    obtain ⟨hu, rfl⟩ := hu
    obtain ⟨hv, rfl⟩ := hv
    have reversed : compare (-(m₁ : Int)) (-(m₂ : Int)) = (compare (m₁ : Int) m₂).swap := by
      rw [Int.compare_swap, Int.compare_eq_ite_lt, Int.compare_eq_ite_lt]
      simp only [Int.neg_lt_neg_iff]
    cases n₁ <;> cases n₂ <;> simp only [UnpackedFloat.compare, signedBits, if_true, if_false,
      Bool.false_eq_true, Option.some.injEq]
    · exact compare_finite hu hv
    · exact (Int.compare_eq_gt.2 (by omega)).symm
    · exact (Int.compare_eq_lt.2 (by omega)).symm
    · rw [compare_finite hu hv, reversed]
  all_goals try omega
  all_goals
    obtain ⟨hu, rfl⟩ := hu
    obtain ⟨hv, rfl⟩ := hv
    cases n₁ <;> cases n₂ <;> simp only [UnpackedFloat.compare, signedBits, if_true, if_false,
      Bool.false_eq_true, Option.some.injEq]
  -- The other pairs differ in kind or sign, or are equal infinities.
  all_goals first
    | exact (Int.compare_eq_lt.2 (by omega)).symm
    | exact (Int.compare_eq_gt.2 (by omega)).symm
    | exact (Int.compare_eq_eq.2 (by omega)).symm

theorem unpacks (x : Float) : Unpacks (signBit x) (magnitudeBits x) x.toModel.unpack :=
  unpacks_unpack _

theorem isNaN_iff {x : Float} : x.isNaN = true ↔ 2047 * 2 ^ 52 < magnitudeBits x := by
  have h := unpacks x
  change x.toModel.unpack.isNaN = true ↔ _
  cases hx : x.toModel.unpack <;> rw [hx] at h <;> simp only [Unpacks] at h <;>
    simp only [UnpackedFloat.isNaN]
  case notANumber => simpa using h
  all_goals
    simp only [Bool.false_eq_true, false_iff]
    omega

theorem isNaN_eq_false_iff {x : Float} : x.isNaN = false ↔ magnitudeBits x ≤ 2047 * 2 ^ 52 := by
  rw [← Bool.not_eq_true, isNaN_iff, Nat.not_lt]

theorem isNaN_of_isFinite {x : Float} (h : IsFinite x) : x.isNaN = false :=
  isNaN_eq_false_iff.2 (Nat.le_of_lt h)

/-- The place of a double among the doubles that are numbers; both zeros have the same. -/
def rankOf (x : Float) : Int :=
  signedBits (signBit x) (magnitudeBits x)

theorem rankOf_bounds {x : Float} (h : x.isNaN = false) :
    -(2047 * 2 ^ 52) ≤ rankOf x ∧ rankOf x ≤ 2047 * 2 ^ 52 := by
  have hle := isNaN_eq_false_iff.1 h
  rw [rankOf, signedBits]
  split <;> omega

theorem lt_iff_rankOf {a b : Float} (ha : a.isNaN = false) (hb : b.isNaN = false) :
    a < b ↔ rankOf a < rankOf b := by
  have h := compare_unpacked (unpacks a) (unpacks b) (isNaN_eq_false_iff.1 ha)
    (isNaN_eq_false_iff.1 hb)
  change decide ((a.toModel.unpack.compare b.toModel.unpack == some .lt) = true) = true ↔ _
  rw [h]
  simp [Int.compare_eq_lt, rankOf]

theorem le_iff_rankOf {a b : Float} (ha : a.isNaN = false) (hb : b.isNaN = false) :
    a ≤ b ↔ rankOf a ≤ rankOf b := by
  have h := compare_unpacked (unpacks a) (unpacks b) (isNaN_eq_false_iff.1 ha)
    (isNaN_eq_false_iff.1 hb)
  change decide ((a.toModel.unpack.compare b.toModel.unpack).any (·.isLE) = true) = true ↔ _
  rw [h]
  simp [rankOf, Ordering.isLE_iff_ne_gt, Int.compare_ne_gt]

theorem beq_iff_rankOf {a b : Float} (ha : a.isNaN = false) (hb : b.isNaN = false) :
    (a == b) = true ↔ rankOf a = rankOf b := by
  have h := compare_unpacked (unpacks a) (unpacks b) (isNaN_eq_false_iff.1 ha)
    (isNaN_eq_false_iff.1 hb)
  change (a.toModel.unpack.compare b.toModel.unpack == some .eq) = true ↔ _
  rw [h]
  simp [rankOf]

theorem isNaN_of_compare {u v : UnpackedFloat} {o : Ordering} (h : u.compare v = some o) :
    u.isNaN = false ∧ v.isNaN = false := by
  cases u <;> cases v <;> first | exact ⟨rfl, rfl⟩ | cases h

theorem isNaN_of_beq {a b : Float} (h : (a == b) = true) : a.isNaN = false ∧ b.isNaN = false := by
  change (a.toModel.unpack.compare b.toModel.unpack == some .eq) = true at h
  exact isNaN_of_compare (beq_iff_eq.1 h)

theorem isNaN_of_lt {a b : Float} (h : a < b) : a.isNaN = false ∧ b.isNaN = false := by
  change decide ((a.toModel.unpack.compare b.toModel.unpack == some .lt) = true) = true at h
  exact isNaN_of_compare (beq_iff_eq.1 (of_decide_eq_true h))

theorem toNat_toBits (x : Float) :
    x.toBits.toNat = magnitudeBits x + if signBit x then 2 ^ 63 else 0 := by
  have hlt : x.toBits.toNat < 2 ^ 64 := x.toBits.toNat_lt
  simp only [magnitudeBits, signBit, decide_eq_true_eq]
  split <;> omega

theorem eq_of_toBits_eq {a b : Float} (h : a.toBits = b.toBits) : a = b := by
  obtain ⟨⟨a, _⟩⟩ := a
  obtain ⟨⟨b, _⟩⟩ := b
  cases (h : a = b)
  rfl

theorem eq_of_bits_eq {a b : Float} (hsign : signBit a = signBit b)
    (hmagnitude : magnitudeBits a = magnitudeBits b) : a = b := by
  refine eq_of_toBits_eq (UInt64.toNat_inj.1 ?_)
  rw [toNat_toBits, toNat_toBits, hsign, hmagnitude]

theorem beq_iff {a b : Float} : (a == b) = true ↔
    a.isNaN = false ∧ (a = b ∨ magnitudeBits a = 0 ∧ magnitudeBits b = 0) := by
  constructor
  · intro h
    obtain ⟨ha, hb⟩ := isNaN_of_beq h
    rw [beq_iff_rankOf ha hb, rankOf, rankOf, signedBits, signedBits] at h
    refine ⟨ha, ?_⟩
    by_cases hzero : magnitudeBits a = 0
    · exact .inr ⟨hzero, by split at h <;> split at h <;> omega⟩
    · refine .inl (eq_of_bits_eq ?_ (by split at h <;> split at h <;> omega))
      cases hsa : signBit a <;> cases hsb : signBit b <;>
        simp only [hsa, hsb, if_true, if_false, Bool.false_eq_true] at h <;> first | rfl | omega
  · rintro ⟨ha, rfl | ⟨hzero, hzero'⟩⟩
    · exact (beq_iff_rankOf ha ha).2 rfl
    · have hb : b.isNaN = false := isNaN_eq_false_iff.2 (by omega)
      rw [beq_iff_rankOf ha hb]
      simp [rankOf, signedBits, hzero, hzero']

section OfMagnitude

variable {negative : Bool} {bits : Nat}

/-- A double keeps the bits of a number that it is made of. -/
theorem toNat_toBits_ofBits {b : UInt64} (h : b.toNat % 2 ^ 63 ≤ 2047 * 2 ^ 52) :
    (Float.ofBits b).toBits.toNat = b.toNat := by
  have hlt : b.toNat < 2 ^ 64 := b.toNat_lt
  have packed := toNat_pack (unpacks_unpack b.toBitVec) h
  change (pack .binary64 (unpack .binary64 b.toBitVec)).toNat = b.toNat
  rw [packed]
  simp only [decide_eq_true_eq, UInt64.toNat_toBitVec]
  split <;> omega

theorem toNat_toBits_ofMagnitude (h : bits ≤ 2047 * 2 ^ 52) :
    (ofMagnitude negative bits).toBits.toNat = bits + if negative then 2 ^ 63 else 0 := by
  have hnat : (UInt64.ofNat (bits + if negative then 2 ^ 63 else 0)).toNat =
      bits + if negative then 2 ^ 63 else 0 := by
    rw [UInt64.toNat_ofNat']
    split <;> omega
  unfold ofMagnitude
  rw [toNat_toBits_ofBits, hnat]
  rw [hnat]
  split <;> omega

theorem magnitudeBits_ofMagnitude (h : bits ≤ 2047 * 2 ^ 52) :
    magnitudeBits (ofMagnitude negative bits) = bits := by
  rw [magnitudeBits, toNat_toBits_ofMagnitude h]
  split <;> omega

theorem signBit_ofMagnitude (h : bits ≤ 2047 * 2 ^ 52) :
    signBit (ofMagnitude negative bits) = negative := by
  rw [signBit, toNat_toBits_ofMagnitude h]
  cases negative
  · simp only [Bool.false_eq_true, if_false, decide_eq_false_iff_not]
    omega
  · simp only [if_true, decide_eq_true_eq]
    omega

theorem ofMagnitude_bits {x : Float} (h : x.isNaN = false) :
    ofMagnitude (signBit x) (magnitudeBits x) = x := by
  have hle := isNaN_eq_false_iff.1 h
  exact eq_of_bits_eq (signBit_ofMagnitude hle) (magnitudeBits_ofMagnitude hle)

end OfMagnitude

end CampusQuery
