import CampusQuery.Proofs.Number.Nearest
import CampusQuery.Proofs.Number.Zero

/-!
Bounds on the results of arithmetic. Main statements: a sum, a product or a quotient of doubles that
are small enough is finite, and a sum with a finite double is a number.
-/

namespace CampusQuery

open Float.Model (Format UnpackedFloat totalExponent)
open Float.Model.UnpackedFloat

section Rounding

/-- The value is below 2^`top` in size, with a significand of so many bits. -/
def Below (top : Int) (significand : Nat) (exponent : Int) : Prop :=
  ∃ width : Nat, significand < 2 ^ width ∧ width + exponent ≤ top

/-- A zero, or a finite value below 2^`top` in size. -/
def SmallerThan (top : Int) : UnpackedFloat → Prop
  | .zero _ => True
  | .finite _ significand exponent _ => Below top significand exponent
  | _ => False

variable {top exponent : Int} {significand : Nat}

/-- Bits that are shifted out do not make the value larger. -/
theorem Below.shiftRight (h : Below top significand exponent) (shift : Nat)
    (least : exponent + shift ≤ top) : Below top (significand / 2 ^ shift) (exponent + shift) := by
  obtain ⟨width, hwidth, htop⟩ := h
  refine ⟨width - shift, ?_, ?_⟩
  · rw [Nat.div_lt_iff_lt_mul (Nat.two_pow_pos shift), ← Nat.pow_add]
    exact Nat.lt_of_lt_of_le hwidth (Nat.pow_le_pow_right (by decide) (by omega))
  · omega

theorem Below.shiftLeft (h : Below top significand exponent) (shift : Nat) :
    Below top (significand * 2 ^ shift) (exponent - shift) := by
  obtain ⟨width, hwidth, htop⟩ := h
  refine ⟨width + shift, ?_, by omega⟩
  rw [Nat.pow_add]
  exact Nat.mul_lt_mul_of_pos_right hwidth (Nat.two_pow_pos shift)

theorem Below.succ (h : Below top significand exponent) :
    Below (top + 1) (significand + 1) exponent := by
  obtain ⟨width, hwidth, htop⟩ := h
  refine ⟨width + 1, ?_, by omega⟩
  rw [Nat.pow_succ]
  omega

theorem Below.mono {top' : Int} {significand' : Nat} (h : Below top significand exponent)
    (hle : significand' ≤ significand) (htop : top ≤ top') : Below top' significand' exponent := by
  obtain ⟨width, hwidth, hwide⟩ := h
  exact ⟨width, by omega, by omega⟩

theorem Below.add {significand' : Nat} (h : Below top significand exponent)
    (h' : Below top significand' exponent) :
    Below (top + 1) (significand + significand') exponent := by
  obtain ⟨width, hwidth, htop⟩ := h
  obtain ⟨width', hwidth', htop'⟩ := h'
  have hle := Nat.pow_le_pow_right (show 0 < 2 by decide) (Nat.le_max_left width width')
  have hle' := Nat.pow_le_pow_right (show 0 < 2 by decide) (Nat.le_max_right width width')
  refine ⟨max width width' + 1, ?_, by omega⟩
  rw [Nat.pow_succ]
  omega

theorem mantissa_shiftRight (em : ExtendedMantissa) (shift : Nat) :
    (em >>> shift).mantissa = em.mantissa / 2 ^ shift := by
  change (shift.repeat ExtendedMantissa.shiftRightOne em).mantissa = _
  induction shift with
  | zero => simp [Nat.repeat]
  | succ shift ih =>
    rw [Nat.repeat, ExtendedMantissa.shiftRightOne, ih, Nat.div_div_eq_div_mul, Nat.pow_succ]

theorem mantissa_ofMantissaAndAccuracy (mantissa : Nat) (accuracy : Accuracy) :
    (ExtendedMantissa.ofMantissaAndAccuracy mantissa accuracy).mantissa = mantissa := by
  rcases accuracy with _ | (_ | _ | _) <;> rfl

theorem roundedMantissa_le (em : ExtendedMantissa) : em.roundedMantissa ≤ em.mantissa + 1 := by
  obtain ⟨mantissa, roundBit, stickyBit⟩ := em
  cases roundBit <;> cases stickyBit <;>
    simp only [ExtendedMantissa.roundedMantissa, ExtendedMantissa.accuracy,
      Accuracy.roundToNearestEven] <;> omega

theorem Below.log2_lt (h : Below top significand exponent) :
    (significand.log2 : Int) + exponent ≤ top := by
  obtain ⟨width, hwidth, htop⟩ := h
  have hlog : significand.log2 ≤ width := by
    rcases Nat.eq_zero_or_pos significand with rfl | hpos
    · exact Nat.zero_le width
    · exact Nat.le_of_lt ((Nat.log2_lt hpos.ne').2 hwidth)
  omega

theorem targetExponent_le (h : Below top significand exponent) (least : -1074 ≤ top) :
    Format.binary64.targetExponent (totalExponent significand exponent) ≤ top := by
  have hlog := h.log2_lt
  have hmin : Format.binary64.minExponent = -1074 := rfl
  have hbits : Format.binary64.mantissaBits = 53 := rfl
  rw [Format.targetExponent, totalExponent, hmin, hbits]
  omega

theorem below_shiftToTargetExponent (h : Below top significand exponent) (least : -1074 ≤ top)
    (accuracy : Accuracy) :
    Below top (shiftToTargetExponent .binary64 significand exponent accuracy).1.mantissa
      (shiftToTargetExponent .binary64 significand exponent accuracy).2 := by
  have target := targetExponent_le h least
  have start := h.log2_lt
  rw [shiftToTargetExponent, shiftToExponent]
  simp only
  rw [mantissa_shiftRight, mantissa_ofMantissaAndAccuracy]
  exact h.shiftRight _ (by omega)

/-- Rounding makes a value at most twice as large. -/
theorem smallerThan_roundWithAccuracy (h : Below top significand exponent) (least : -1074 ≤ top)
    (sign : Sign) (accuracy : Accuracy) :
    SmallerThan (top + 1) (roundWithAccuracy .binary64 sign significand exponent accuracy) := by
  have shifted := below_shiftToTargetExponent h least accuracy
  rw [roundWithAccuracy]
  generalize shiftToTargetExponent .binary64 significand exponent accuracy = first at shifted ⊢
  obtain ⟨em, exponent⟩ := first
  have rounded : Below (top + 1) em.roundedMantissa exponent :=
    shifted.succ.mono (roundedMantissa_le em) (Int.le_refl _)
  have final := below_shiftToTargetExponent rounded (by omega) .exact
  simp only
  generalize shiftToTargetExponent .binary64 em.roundedMantissa exponent .exact = last at final ⊢
  split
  · trivial
  · exact final

theorem smallerThan_round (h : Below top significand exponent) (least : -1074 ≤ top) (sign : Sign) :
    SmallerThan (top + 1) (round .binary64 sign significand exponent) := by
  rw [UnpackedFloat.round, decreaseExponent]
  simp only
  rw [Nat.shiftLeft_eq]
  exact smallerThan_roundWithAccuracy (h.shiftLeft _) least sign .exact

theorem smallerThan_normalize {mantissa : Int} (h : Below top mantissa.natAbs exponent)
    (least : -1074 ≤ top) (sign : Sign) :
    SmallerThan (top + 1) (UnpackedFloat.normalize .binary64 mantissa exponent sign) := by
  rw [UnpackedFloat.normalize]
  cases compare mantissa 0 with
  | eq => trivial
  | lt => exact smallerThan_round (h.mono (by omega) (Int.le_refl _)) least .negative
  | gt => exact smallerThan_round (h.mono (by omega) (Int.le_refl _)) least .positive

end Rounding

section Operations

variable {top other : Int} {u v : UnpackedFloat}

theorem SmallerThan.mono (h : SmallerThan top u) (hle : top ≤ other) : SmallerThan other u := by
  cases u with
  | finite => exact Below.mono h (Nat.le_refl _) hle
  | zero => trivial
  | infinity => contradiction
  | notANumber => contradiction

theorem natAbs_apply (sign : Sign) (n : Nat) : (sign.apply n).natAbs = n := by
  cases sign <;> simp [Sign.apply]

theorem smallerThan_add (hu : SmallerThan top u) (hv : SmallerThan top v) (least : -1075 ≤ top) :
    SmallerThan (top + 2) (add .binary64 u v) := by
  cases u with
  | infinity => contradiction
  | notANumber => contradiction
  | zero sign =>
    cases v with
    | infinity => contradiction
    | notANumber => contradiction
    | zero sign' =>
      rw [add]
      split <;> trivial
    | finite => exact hv.mono (by omega)
  | finite s₁ m₁ e₁ h₁ =>
    cases v with
    | infinity => contradiction
    | notANumber => contradiction
    | zero => exact hu.mono (by omega)
    | finite s₂ m₂ e₂ h₂ =>
      have hu' := Below.shiftLeft hu (e₁ - min e₁ e₂).toNat
      have hv' := Below.shiftLeft hv (e₂ - min e₁ e₂).toNat
      rw [show e₁ - ((e₁ - min e₁ e₂).toNat : Int) = min e₁ e₂ by omega] at hu'
      rw [show e₂ - ((e₂ - min e₁ e₂).toNat : Int) = min e₁ e₂ by omega] at hv'
      have total := hu'.add hv'
      have size : ∀ m m' : Nat, (s₁.apply m + s₂.apply m').natAbs ≤ m + m' := by
        intro m m'
        refine Nat.le_trans (Int.natAbs_add_le _ _) ?_
        rw [natAbs_apply, natAbs_apply]
      rw [add]
      simp only [decreaseExponent, Nat.shiftLeft_eq]
      exact (smallerThan_normalize (total.mono (size _ _) (Int.le_refl _)) (by omega) _).mono
        (by omega)

theorem smallerThan_mul (hu : SmallerThan top u) (hv : SmallerThan other v)
    (least : -1074 ≤ top + other) : SmallerThan (top + other + 1) (mul .binary64 u v) := by
  cases u with
  | infinity => contradiction
  | notANumber => contradiction
  | zero sign =>
    cases v with
    | infinity => contradiction
    | notANumber => contradiction
    | zero => trivial
    | finite => trivial
  | finite s₁ m₁ e₁ h₁ =>
    cases v with
    | infinity => contradiction
    | notANumber => contradiction
    | zero => trivial
    | finite s₂ m₂ e₂ h₂ =>
      obtain ⟨w₁, hm₁, hw₁⟩ := hu
      obtain ⟨w₂, hm₂, hw₂⟩ := hv
      have product : Below (top + other) (m₁ * m₂) (e₁ + e₂) := by
        refine ⟨w₁ + w₂, ?_, by omega⟩
        rw [Nat.pow_add]
        exact Nat.mul_lt_mul'' hm₁ hm₂
      exact smallerThan_roundWithAccuracy product least _ _

/-- A divisor that is no smaller than its exponent tells makes a quotient larger only so far. -/
theorem smallerThan_div (hu : SmallerThan top u) {sign : Sign} {divisor : Nat} {exponent : Int}
    {hpos : 0 < divisor} (least : -1074 ≤ top - exponent) :
    SmallerThan (top - exponent + 1) (div .binary64 u (.finite sign divisor exponent hpos)) := by
  cases u with
  | infinity => contradiction
  | notANumber => contradiction
  | zero => trivial
  | finite s m e h =>
    rw [div, divCore]
    simp only [Nat.shiftLeft_eq]
    generalize htarget : min (e - exponent) _ = target
    have hle : target ≤ e - exponent := by omega
    obtain ⟨width, hwidth, hwide⟩ := Below.shiftLeft hu (e - exponent - target).toNat
    have quotient :
        Below (top - exponent) (m * 2 ^ (e - exponent - target).toNat / divisor) target :=
      ⟨width, Nat.lt_of_le_of_lt (Nat.div_le_self _ _) hwidth, by omega⟩
    exact smallerThan_roundWithAccuracy quotient least _ _

end Operations

section Doubles

variable {x y : Float} {b c k : Nat}

/-- Bits below a field stand for a value below the power of two of that field. -/
theorem smallerThan_unpack (h : magnitudeBits x < b * 2 ^ 52) (hb : b ≤ 2047) :
    SmallerThan ((b : Int) - 1022) x.toModel.unpack := by
  have bits := unpacks x
  cases hx : x.toModel.unpack with
  | notANumber =>
    rw [hx, Unpacks] at bits
    omega
  | infinity sign =>
    rw [hx, Unpacks] at bits
    omega
  | zero sign => trivial
  | finite sign significand exponent hpos =>
    rw [hx, Unpacks] at bits
    exact ⟨53, bits.1.2.1, by omega⟩

theorem magnitudeBits_pack (u : UnpackedFloat) :
    magnitudeBits (.ofModel (.pack u)) = (pack .binary64 u).toNat % 2 ^ 63 := rfl

theorem magnitudeBits_packComponents (sign : Sign) (exponent : BitVec 11) (fraction : BitVec 52) :
    (packComponents .binary64 sign exponent fraction).toNat % 2 ^ 63 =
      exponent.toNat * 2 ^ 52 + fraction.toNat := by
  have hexponent := exponent.isLt
  have hfraction := fraction.isLt
  rw [toNat_packComponents, Nat.mul_add_mod', Nat.mod_eq_of_lt (by omega)]

theorem magnitudeBits_pack_lt {u : UnpackedFloat} (h : SmallerThan ((b : Int) - 1023) u)
    (hpos : 0 < b) (hb : b ≤ 1995) : magnitudeBits (.ofModel (.pack u)) < b * 2 ^ 52 := by
  have hbias : ((Format.binary64.exponentBias : Nat) : Int) = 1023 := rfl
  have hwidth : ((Format.binary64.mantissaBitsWithoutImplicit : Nat) : Int) = 52 := rfl
  have hbits : Format.binary64.mantissaBits = 53 := rfl
  have hfields : 2 ^ Format.binary64.exponentBits = 2048 := rfl
  cases u with
  | infinity => contradiction
  | notANumber => contradiction
  | zero sign =>
    rw [magnitudeBits_pack_zero]
    omega
  | finite sign significand exponent hsignificand =>
    obtain ⟨width, hlt, htop⟩ := h
    have hlog := (Nat.log2_lt hsignificand.ne').2 hlt
    rw [magnitudeBits_pack, UnpackedFloat.pack]
    simp only [hbits, hbias, hwidth, hfields]
    rw [if_neg (by omega)]
    split
    · rw [magnitudeBits_packComponents, BitVec.toNat_ofNat, BitVec.toNat_ofNat]
      omega
    · rw [magnitudeBits_packComponents, BitVec.toNat_ofNat, BitVec.toNat_ofNat]
      omega

theorem magnitudeBits_pack_infinity (sign : Sign) :
    magnitudeBits (.ofModel (.pack (.infinity sign))) = 2047 * 2 ^ 52 := by
  cases sign <;> decide

/-- Only what is no number is packed as none. -/
theorem magnitudeBits_pack_le {u : UnpackedFloat} (h : u ≠ .notANumber) :
    magnitudeBits (.ofModel (.pack u)) ≤ 2047 * 2 ^ 52 := by
  have hfields : 2 ^ Format.binary64.exponentBits = 2048 := rfl
  cases u with
  | notANumber => contradiction
  | infinity sign => exact Nat.le_of_eq (magnitudeBits_pack_infinity sign)
  | zero sign =>
    rw [magnitudeBits_pack_zero]
    omega
  | finite sign significand exponent hsignificand =>
    rw [magnitudeBits_pack, UnpackedFloat.pack]
    simp only [hfields]
    split
    · exact Nat.le_of_eq (magnitudeBits_pack_infinity sign)
    split
    · rw [magnitudeBits_packComponents, BitVec.toNat_ofNat, BitVec.toNat_ofNat]
      omega
    · rw [magnitudeBits_packComponents, BitVec.toNat_ofNat, BitVec.toNat_ofNat]
      omega

theorem roundWithAccuracy_ne_notANumber (sign : Sign) (significand : Nat) (exponent : Int)
    (accuracy : Accuracy) :
    roundWithAccuracy .binary64 sign significand exponent accuracy ≠ .notANumber := by
  rw [roundWithAccuracy]
  simp only
  split <;> nofun

theorem round_ne_notANumber (sign : Sign) (significand : Nat) (exponent : Int) :
    round .binary64 sign significand exponent ≠ .notANumber :=
  roundWithAccuracy_ne_notANumber _ _ _ _

/-- Only two infinities add up to no number. -/
theorem add_ne_notANumber {u v : UnpackedFloat} (hu : u ≠ .notANumber) {top : Int}
    (hv : SmallerThan top v) : add .binary64 u v ≠ .notANumber := by
  cases v with
  | infinity => contradiction
  | notANumber => contradiction
  | zero sign =>
    cases u with
    | notANumber => contradiction
    | zero sign' =>
      rw [add]
      split <;> nofun
    | _ => nofun
  | finite s m e h =>
    cases u with
    | notANumber => contradiction
    | infinity => nofun
    | zero => nofun
    | finite s' m' e' h' =>
      rw [add]
      simp only [UnpackedFloat.normalize]
      split
      · exact round_ne_notANumber _ _ _
      · nofun
      · exact round_ne_notANumber _ _ _

theorem unpack_ne_notANumber (h : x.isNaN = false) : x.toModel.unpack ≠ .notANumber := by
  intro hx
  have bits := unpacks x
  rw [hx, Unpacks] at bits
  have := isNaN_eq_false_iff.1 h
  omega

theorem isNaN_add (hx : x.isNaN = false) (hy : IsFinite y) : (x + y).isNaN = false :=
  isNaN_eq_false_iff.2 (magnitudeBits_pack_le
    (add_ne_notANumber (unpack_ne_notANumber hx) (smallerThan_unpack hy (Nat.le_refl _))))

/-- A sum of finite doubles is a number, though it may be infinite. -/
theorem isNaN_foldl_add {xs : List Float} (hxs : ∀ x ∈ xs, IsFinite x) {start : Float}
    (h : start.isNaN = false) : (xs.foldl (· + ·) start).isNaN = false := by
  induction xs generalizing start with
  | nil => exact h
  | cons x xs ih =>
    rw [List.forall_mem_cons] at hxs
    exact ih hxs.2 (isNaN_add h hxs.1)

theorem magnitudeBits_add_lt (hx : magnitudeBits x < b * 2 ^ 52) (hy : magnitudeBits y < b * 2 ^ 52)
    (hb : b ≤ 1992) : magnitudeBits (x + y) < (b + 3) * 2 ^ 52 := by
  have sum := smallerThan_add (smallerThan_unpack hx (by omega)) (smallerThan_unpack hy (by omega))
    (by omega)
  exact magnitudeBits_pack_lt (sum.mono (by omega)) (by omega) (by omega)

theorem magnitudeBits_mul_lt (hx : magnitudeBits x < b * 2 ^ 52) (hy : magnitudeBits y < c * 2 ^ 52)
    (hb : b ≤ 2047) (hc : c ≤ 2047) (least : 1022 ≤ b + c) (hk : b + c ≤ k + 1020)
    (hle : k ≤ 1995) : magnitudeBits (x * y) < k * 2 ^ 52 := by
  have product := smallerThan_mul (smallerThan_unpack hx hb) (smallerThan_unpack hy hc) (by omega)
  exact magnitudeBits_pack_lt (product.mono (by omega)) (by omega) hle

/-- Bits from a field on have an exponent that is no less than the one of that field. -/
theorem exists_unpack_finite (hc : 0 < c) (h : c * 2 ^ 52 ≤ magnitudeBits x) (finite : IsFinite x) :
    ∃ sign significand exponent hpos, (c : Int) - 1075 ≤ exponent ∧ exponent ≤ 971 ∧
      x.toModel.unpack = .finite sign significand exponent hpos := by
  have bits := unpacks x
  rw [IsFinite] at finite
  cases hx : x.toModel.unpack with
  | finite sign significand exponent hpos =>
    rw [hx, Unpacks] at bits
    exact ⟨sign, significand, exponent, hpos, by omega, by omega, rfl⟩
  | _ =>
    rw [hx, Unpacks] at bits
    omega

theorem magnitudeBits_div_lt (hx : magnitudeBits x < b * 2 ^ 52) (hy : c * 2 ^ 52 ≤ magnitudeBits y)
    (finite : IsFinite y) (hb : b ≤ 2047) (hc : 0 < c) (least : 971 ≤ b) (hk : b + 1077 ≤ k + c)
    (hle : k ≤ 1995) : magnitudeBits (x / y) < k * 2 ^ 52 := by
  obtain ⟨sign, divisor, exponent, hpos, lower, upper, hunpack⟩ := exists_unpack_finite hc hy finite
  have quotient : SmallerThan ((b : Int) - 1022 - exponent + 1)
      (div .binary64 x.toModel.unpack (.finite sign divisor exponent hpos)) :=
    smallerThan_div (smallerThan_unpack hx hb) (by omega)
  rw [← hunpack] at quotient
  exact magnitudeBits_pack_lt (quotient.mono (by omega)) (by omega) hle

theorem unpacks_neg {negative : Bool} {magnitude : Nat} {u : UnpackedFloat}
    (h : Unpacks negative magnitude u) : Unpacks (!negative) magnitude u.neg := by
  have turned : -(if negative then Sign.negative else Sign.positive) =
      if !negative then Sign.negative else Sign.positive := by
    cases negative <;> rfl
  cases u with
  | notANumber => exact h
  | infinity sign => exact ⟨h.1, by rw [h.2]; exact turned⟩
  | zero sign => exact ⟨h.1, by rw [h.2]; exact turned⟩
  | finite sign significand exponent hpos => exact ⟨h.1, by rw [h.2]; exact turned⟩

theorem magnitudeBits_neg (h : x.isNaN = false) : magnitudeBits (-x) = magnitudeBits x := by
  have hle := isNaN_eq_false_iff.1 h
  change magnitudeBits (.ofModel (.pack x.toModel.unpack.neg)) = _
  rw [magnitudeBits_pack, toNat_pack (unpacks_neg (unpacks x)) hle]
  split <;> omega

end Doubles

end CampusQuery
