import Mathlib.Data.List.Forall2
import CampusQuery.Data.Value
import CampusQuery.Query.Group
import CampusQuery.Proofs.Number.Double

/-!
Doubles up to the sign of a zero. Main statement: comparisons, sums, extremes, means and JSON
numbers do not show the sign of a zero, except as the sign of a zero.
-/

namespace CampusQuery

open Float.Model (Format UnpackedFloat)
open Float.Model.UnpackedFloat

/-- The same double, or both zero. -/
def Alike (a b : Float) : Prop :=
  a = b ∨ magnitudeBits a = 0 ∧ magnitudeBits b = 0

namespace Alike

variable {a b c d : Float}

theorem refl (a : Float) : Alike a a :=
  .inl rfl

theorem symm (h : Alike a b) : Alike b a := by
  rcases h with rfl | ⟨ha, hb⟩
  · exact .refl a
  · exact .inr ⟨hb, ha⟩

theorem trans (hab : Alike a b) (hbc : Alike b c) : Alike a c := by
  rcases hab with rfl | ⟨ha, hb⟩
  · exact hbc
  · rcases hbc with rfl | ⟨-, hc⟩
    · exact .inr ⟨ha, hb⟩
    · exact .inr ⟨ha, hc⟩

theorem of_beq (h : (a == b) = true) : Alike a b :=
  (beq_iff.1 h).2

theorem isNaN_eq (h : Alike a b) : a.isNaN = b.isNaN := by
  rcases h with rfl | ⟨ha, hb⟩
  · rfl
  · rw [isNaN_eq_false_iff.2 (by omega : magnitudeBits a ≤ 2047 * 2 ^ 52),
      isNaN_eq_false_iff.2 (by omega : magnitudeBits b ≤ 2047 * 2 ^ 52)]

theorem rankOf_eq (h : Alike a b) : rankOf a = rankOf b := by
  rcases h with rfl | ⟨ha, hb⟩
  · rfl
  · simp [rankOf, signedBits, ha, hb]

theorem lt_iff (hab : Alike a b) (hcd : Alike c d) : a < c ↔ b < d := by
  cases ha : a.isNaN with
  | true =>
    have hb := hab.isNaN_eq ▸ ha
    constructor <;> intro h <;> have := (isNaN_of_lt h).1 <;> simp_all
  | false =>
    cases hc : c.isNaN with
    | true =>
      have hd := hcd.isNaN_eq ▸ hc
      constructor <;> intro h <;> have := (isNaN_of_lt h).2 <;> simp_all
    | false =>
      rw [lt_iff_rankOf ha hc, lt_iff_rankOf (hab.isNaN_eq ▸ ha) (hcd.isNaN_eq ▸ hc),
        hab.rankOf_eq, hcd.rankOf_eq]

theorem beq_eq (hab : Alike a b) (hcd : Alike c d) : (a == c) = (b == d) := by
  rw [Bool.eq_iff_iff]
  cases ha : a.isNaN with
  | true =>
    have hb := hab.isNaN_eq ▸ ha
    constructor <;> intro h <;> have := (isNaN_of_beq h).1 <;> simp_all
  | false =>
    cases hc : c.isNaN with
    | true =>
      have hd := hcd.isNaN_eq ▸ hc
      constructor <;> intro h <;> have := (isNaN_of_beq h).2 <;> simp_all
    | false =>
      rw [beq_iff_rankOf ha hc, beq_iff_rankOf (hab.isNaN_eq ▸ ha) (hcd.isNaN_eq ▸ hc),
        hab.rankOf_eq, hcd.rankOf_eq]

theorem compareNumbers_eq (hab : Alike a b) (hcd : Alike c d) :
    compareNumbers a c = compareNumbers b d := by
  simp only [compareNumbers, hab.lt_iff hcd, hcd.lt_iff hab]

theorem larger (hab : Alike a b) (hcd : Alike c d) :
    Alike (largerNumber a c) (largerNumber b d) := by
  simp only [largerNumber, hab.isNaN_eq, hcd.isNaN_eq, hab.lt_iff hcd]
  split
  · exact hcd
  split
  · exact hab
  split
  · exact hcd
  · exact hab

theorem smaller (hab : Alike a b) (hcd : Alike c d) :
    Alike (smallerNumber a c) (smallerNumber b d) := by
  simp only [smallerNumber, hab.isNaN_eq, hcd.isNaN_eq, hcd.lt_iff hab]
  split
  · exact hcd
  split
  · exact hab
  split
  · exact hcd
  · exact hab

end Alike

section Sums

theorem exists_zero_of_magnitudeBits {x : Float} (h : magnitudeBits x = 0) :
    ∃ sign, x.toModel.unpack = .zero sign := by
  have hx := unpacks x
  cases hu : x.toModel.unpack <;> rw [hu] at hx <;> simp only [Unpacks, h] at hx
  case notANumber => omega
  case infinity => omega
  case zero sign => exact ⟨sign, rfl⟩
  case finite => omega

theorem magnitudeBits_pack_zero (sign : Sign) :
    magnitudeBits (.ofModel (.pack (.zero sign))) = 0 := by
  cases sign <;> decide

/-- A sum with a zero does not show its sign, unless the sum is zero. -/
theorem add_unpacked {u u' v v' : UnpackedFloat}
    (hu : u = u' ∨ (∃ s, u = .zero s) ∧ ∃ s, u' = .zero s)
    (hv : v = v' ∨ (∃ s, v = .zero s) ∧ ∃ s, v' = .zero s) :
    UnpackedFloat.add .binary64 u v = UnpackedFloat.add .binary64 u' v' ∨
      (∃ s, UnpackedFloat.add .binary64 u v = .zero s) ∧
        ∃ s, UnpackedFloat.add .binary64 u' v' = .zero s := by
  have zeros : ∀ s t : Sign, ∃ r, UnpackedFloat.add .binary64 (.zero s) (.zero t) = .zero r := by
    intro s t
    cases s <;> cases t <;> exact ⟨_, rfl⟩
  rcases hu with rfl | ⟨⟨s, rfl⟩, s', rfl⟩
  · rcases hv with rfl | ⟨⟨t, rfl⟩, t', rfl⟩
    · exact .inl rfl
    · cases u with
      | zero r => exact .inr ⟨zeros r t, zeros r t'⟩
      | _ => exact .inl rfl
  · rcases hv with rfl | ⟨⟨t, rfl⟩, t', rfl⟩
    · cases v with
      | zero r => exact .inr ⟨zeros s r, zeros s' r⟩
      | _ => exact .inl rfl
    · exact .inr ⟨zeros s t, zeros s' t'⟩

theorem Alike.add {a b c d : Float} (hab : Alike a b) (hcd : Alike c d) :
    Alike (a + c) (b + d) := by
  have unpacked : ∀ {x y : Float}, Alike x y → x.toModel.unpack = y.toModel.unpack ∨
      (∃ s, x.toModel.unpack = .zero s) ∧ ∃ s, y.toModel.unpack = .zero s := by
    rintro x y (rfl | ⟨hx, hy⟩)
    · exact .inl rfl
    · exact .inr ⟨exists_zero_of_magnitudeBits hx, exists_zero_of_magnitudeBits hy⟩
  change Alike (.ofModel (.pack (UnpackedFloat.add .binary64 a.toModel.unpack c.toModel.unpack)))
    (.ofModel (.pack (UnpackedFloat.add .binary64 b.toModel.unpack d.toModel.unpack)))
  rcases add_unpacked (unpacked hab) (unpacked hcd) with heq | ⟨⟨s, hs⟩, t, ht⟩
  · rw [heq]
    exact .refl _
  · rw [hs, ht]
    exact .inr ⟨magnitudeBits_pack_zero s, magnitudeBits_pack_zero t⟩

/-- A run over numbers does not show the sign of a zero if its steps do not. -/
theorem Alike.foldl {step : Float → Float → Float}
    (hstep : ∀ {a b c d}, Alike a b → Alike c d → Alike (step a c) (step b d)) {xs ys : List Float}
    (h : List.Forall₂ Alike xs ys) {a b : Float} (hab : Alike a b) :
    Alike (xs.foldl step a) (ys.foldl step b) := by
  induction h generalizing a b with
  | nil => exact hab
  | cons head _ ih => exact ih (hstep hab head)

end Sums

section Values

variable {a b : Float}

theorem ofFloat_of_magnitudeBits (h : magnitudeBits a = 0) :
    BinaryValue.ofFloat a = .finite (signBit a) 0 (.negSucc 1073) := by
  simp [BinaryValue.ofFloat, h]

theorem ofDouble?_zero (h : magnitudeBits a = 0) : Decimal.ofDouble? a = some Decimal.zero := by
  simp only [Decimal.ofDouble?, ofFloat_of_magnitudeBits h, Nat.zero_mul, Nat.two_pow_pos, if_true]

theorem wholeValue?_zero (h : magnitudeBits a = 0) : wholeValue? a = some 0 := by
  simp only [wholeValue?, ofFloat_of_magnitudeBits h, scaleByTwo, Nat.zero_mod, Nat.zero_div,
    if_true]
  cases signBit a <;> rfl

theorem Alike.ofDouble?_eq (h : Alike a b) : Decimal.ofDouble? a = Decimal.ofDouble? b := by
  rcases h with rfl | ⟨ha, hb⟩
  · rfl
  · rw [ofDouble?_zero ha, ofDouble?_zero hb]

theorem decimalMean?_congr {xs ys : List Float} (h : List.Forall₂ Alike xs ys) :
    decimalMean? xs = decimalMean? ys := by
  have decimals : xs.mapM Decimal.ofDouble? = ys.mapM Decimal.ofDouble? := by
    induction h with
    | nil => rfl
    | cons head _ ih => rw [List.mapM_cons, List.mapM_cons, head.ofDouble?_eq, ih]
  rw [decimalMean?, decimalMean?, decimals]

/-- Both zeros are written as the integer zero. -/
theorem Alike.toJson_eq (h : Alike a b) :
    FieldValue.toJson (.number a) = FieldValue.toJson (.number b) := by
  rcases h with rfl | ⟨ha, hb⟩
  · rfl
  · have whole : ∀ {x : Float}, magnitudeBits x = 0 →
        FieldValue.toJson (.number x) = .number (.integer 0) := by
      intro x hx
      simp only [FieldValue.toJson, FieldValue.wholeJson?, wholeValue?_zero hx]
      rfl
    rw [whole ha, whole hb]

end Values

end CampusQuery
