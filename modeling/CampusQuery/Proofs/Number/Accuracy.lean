import CampusQuery.Proofs.Number.Arithmetic

/-!
How near doubles are to what they are made from. Main statements: the double nearest to a quotient
is off by half a unit of 53 bits at most, and a number of at most 53 bits is a double.
-/

namespace CampusQuery

open Float.Model.UnpackedFloat (pack)

section Accuracy

variable {num den : Nat} {top : Int}

/-- The nearest double is a rounded mantissa in units of its exponent. -/
theorem exists_nearestBits (hnum : 0 < num) (hden : 0 < den) : ∃ mantissa exponent,
    exponent = max (-1074) (Int.log 2 ((num : ℚ) / den) - 52) ∧
      nearestBits num den =
        min (mantissa + (exponent + 1074).toNat * 2 ^ 52) (2047 * 2 ^ 52) ∧
      mantissa ≤ 2 ^ 53 ∧ (exponent = -1074 ∨ 2 ^ 52 ≤ mantissa) ∧
        |(mantissa : ℚ) - num / den * 2 ^ (-exponent)| ≤ 1 / 2 := by
  have hpos : (0 : ℚ) < num / den := by positivity
  refine ⟨_, _, rfl, nearestBits_eq hnum (unitExponent_eq hnum hden), ?_, ?_, ?_⟩
  all_goals
    generalize hexponent : max (-1074) (Int.log 2 ((num : ℚ) / den) - 52) = exponent
    have scaled := scaleByTwo_div (-exponent) num den
    have hbottom : 0 < (scaleByTwo (-exponent) num den).2 := scaleByTwo_pos _ hden
  · refine roundDiv_le .even (scaleByTwo_lt _ hden ?_)
    have upper := (lt_two_zpow_iff hpos).2 (Int.lt_succ (Int.log 2 ((num : ℚ) / den)))
    calc (num : ℚ) / den * 2 ^ (-exponent)
      _ < 2 ^ (Int.log 2 ((num : ℚ) / den) + 1) * 2 ^ (-exponent) := by gcongr
      _ = 2 ^ (Int.log 2 ((num : ℚ) / den) + 1 - exponent) := by
        rw [← zpow_add₀ two_ne_zero, sub_eq_add_neg]
      _ ≤ 2 ^ (53 : Int) := zpow_le_zpow_right₀ one_le_two (by omega)
      _ = (2 ^ 53 : Nat) := by norm_num
  · by_cases least : exponent = -1074
    · exact .inl least
    have lower : (2 : ℚ) ^ (exponent + 52) ≤ num / den := (two_zpow_le_iff hpos).2 (by omega)
    have wide : (2 : ℚ) ^ 52 ≤
        (scaleByTwo (-exponent) num den).1 / (scaleByTwo (-exponent) num den).2 := by
      rw [scaled]
      calc (2 : ℚ) ^ 52
        _ = 2 ^ (exponent + 52) * 2 ^ (-exponent) := by
          rw [← zpow_add₀ two_ne_zero, ← zpow_natCast]
          congr 1
          omega
        _ ≤ num / den * 2 ^ (-exponent) := by gcongr
    rw [le_div_iff₀ (by exact_mod_cast hbottom)] at wide
    exact .inr (le_roundDiv .even hbottom (by exact_mod_cast wide))
  · rw [← scaled]
    exact abs_roundDiv_sub_le .even _ hbottom

/-- Rounding a quotient below 2^`top` changes it by half a unit of 53 bits at most. -/
theorem nearestDouble_near (hden : 0 < den) (small : (num : ℚ) / den < 2 ^ top) (low : -1021 ≤ top)
    (high : top ≤ 1023) (negative : Bool) : IsFinite (nearestDouble negative num den) ∧
      |magnitude (nearestDouble negative num den) - num / den| ≤ 2 ^ (top - 54) := by
  have bits : magnitudeBits (nearestDouble negative num den) = nearestBits num den :=
    magnitudeBits_ofMagnitude (nearestBits_le num den)
  rcases Nat.eq_zero_or_pos num with rfl | hnum
  · rw [nearestBits, if_pos rfl] at bits
    have finite : IsFinite (nearestDouble negative 0 den) := by
      rw [IsFinite, bits]
      decide
    have value := magnitude_of_bits finite (Nat.zero_le _) (Int.le_refl _) (.inl rfl) bits
    refine ⟨finite, ?_⟩
    rw [value, Nat.cast_zero, zero_mul, zero_div, sub_zero, abs_zero]
    positivity
  · have hlog := (lt_two_zpow_iff (by positivity : (0 : ℚ) < num / den)).1 small
    obtain ⟨mantissa, exponent, hexponent, hbits, size, normal, near⟩ :=
      exists_nearestBits hnum hden
    rw [hbits, Nat.min_eq_left (by omega)] at bits
    have finite : IsFinite (nearestDouble negative num den) := by
      rw [IsFinite, bits]
      omega
    have hunit : (0 : ℚ) < 2 ^ exponent := by positivity
    refine ⟨finite, ?_⟩
    rw [magnitude_of_bits finite size (by omega) normal bits]
    calc |(mantissa : ℚ) * 2 ^ exponent - num / den|
      _ = |(mantissa : ℚ) - num / den * 2 ^ (-exponent)| * 2 ^ exponent := by
        rw [← abs_of_pos hunit, ← abs_mul, abs_of_pos hunit, sub_mul, mul_assoc,
          ← zpow_add₀ two_ne_zero, neg_add_cancel, zpow_zero, mul_one]
      _ ≤ 1 / 2 * 2 ^ exponent := by gcongr
      _ = 2 ^ (exponent - 1) := by
        rw [zpow_sub_one₀ two_ne_zero]
        ring
      _ ≤ 2 ^ (top - 54) := zpow_le_zpow_right₀ one_le_two (by omega)

end Accuracy

section Exact

variable {num den : Nat}

theorem magnitude_nonneg (x : Float) : 0 ≤ magnitude x := by
  rw [magnitude]
  split
  · positivity
  · exact le_refl 0

theorem signBit_nearestDouble (negative : Bool) (num den : Nat) :
    signBit (nearestDouble negative num den) = negative :=
  signBit_ofMagnitude (nearestBits_le num den)

theorem neg_nearestDouble (negative : Bool) (num den : Nat) :
    -nearestDouble negative num den = nearestDouble (!negative) num den := by
  have bounded := nearestBits_le num den
  apply eq_of_toBits_eq
  rw [← UInt64.toNat_inj, nearestDouble, nearestDouble, toNat_toBits_ofMagnitude bounded]
  change (pack .binary64 (ofMagnitude negative (nearestBits num den)).toModel.unpack.neg).toNat = _
  rw [toNat_pack (unpacks_neg (unpacks _)), magnitudeBits_ofMagnitude bounded,
    signBit_ofMagnitude bounded]
  rw [magnitudeBits_ofMagnitude bounded]
  exact bounded

/-- A number of at most 53 bits has a significand and an exponent of doubles. -/
theorem exists_canonical_mul {n : Nat} (hn : n < 2 ^ 53) {power : Int} (low : -1022 ≤ power) :
    ∃ significand exponent, Canonical significand exponent ∧ exponent ≤ power ∧
      (n : ℚ) * 2 ^ power = significand * 2 ^ exponent := by
  rcases Nat.eq_zero_or_pos n with rfl | hpos
  · exact ⟨0, -1074, ⟨by decide, Int.le_refl _, .inl rfl⟩, by omega, by simp⟩
  · have hlog : n.log2 ≤ 52 := Nat.le_of_lt_succ ((Nat.log2_lt hpos.ne').2 hn)
    obtain ⟨shift, hshift⟩ := Nat.exists_eq_add_of_le hlog
    refine ⟨n * 2 ^ shift, power - shift, ⟨?_, by omega, .inr ?_⟩, by omega, ?_⟩
    · calc n * 2 ^ shift
        _ < 2 ^ (n.log2 + 1) * 2 ^ shift :=
          Nat.mul_lt_mul_of_pos_right Nat.lt_log2_self (Nat.two_pow_pos shift)
        _ = 2 ^ (n.log2 + 1 + shift) := (Nat.pow_add 2 _ _).symm
        _ = 2 ^ 53 := by rw [show n.log2 + 1 + shift = 53 by omega]
    · exact two_pow_le_shifted hpos hshift.le
    · rw [Nat.cast_mul, Nat.cast_pow, Nat.cast_ofNat, zpow_sub₀ two_ne_zero, zpow_natCast]
      field_simp

/-- A number of at most 53 bits is a double. -/
theorem nearestDouble_exact (hden : 0 < den) {n : Nat} (hn : n < 2 ^ 53) {power : Int}
    (low : -1022 ≤ power) (high : power ≤ 971) (h : (num : ℚ) / den = n * 2 ^ power)
    (negative : Bool) : IsFinite (nearestDouble negative num den) ∧
      magnitude (nearestDouble negative num den) = num / den := by
  obtain ⟨significand, exponent, canonical, hle, same⟩ := exists_canonical_mul hn low
  have bits := nearestBits_of_canonical hden canonical (h.trans same)
  obtain ⟨hlt, hleast, hnormal⟩ := canonical
  rw [Nat.min_eq_left (by omega)] at bits
  have bits' : magnitudeBits (nearestDouble negative num den) =
      significand + (exponent + 1074).toNat * 2 ^ 52 := by
    rw [nearestDouble, magnitudeBits_ofMagnitude (nearestBits_le num den), bits]
  have finite : IsFinite (nearestDouble negative num den) := by
    rw [IsFinite, bits']
    omega
  exact ⟨finite, by rw [magnitude_of_bits finite hlt.le hleast hnormal bits', h, same]⟩

theorem nearestDouble_nat {n : Nat} (hn : n < 2 ^ 53) : IsFinite (nearestDouble false n 1) ∧
    magnitude (nearestDouble false n 1) = n := by
  have h : (n : ℚ) / (1 : Nat) = n * 2 ^ (0 : Int) := by simp
  obtain ⟨finite, value⟩ := nearestDouble_exact Nat.one_pos hn (by decide) (by decide) h false
  exact ⟨finite, by rw [value, Nat.cast_one, div_one]⟩

theorem exists_quotient {q : ℚ} (h : 0 ≤ q) : ∃ num den : Nat, 0 < den ∧ (num : ℚ) / den = q := by
  refine ⟨q.num.toNat, q.den, q.den_pos, ?_⟩
  have whole : ((q.num.toNat : Int) : ℚ) = q.num := by
    rw [Int.toNat_of_nonneg (Rat.num_nonneg.2 h)]
  rw [← Int.cast_natCast q.num.toNat, whole, Rat.num_div_den]

/-- A double that is near a whole number is rounded to it. -/
theorem roundDouble_eq {x : Float} (h : IsFinite x) {n : Nat} (near : |magnitude x - n| < 1 / 2) :
    roundDouble x = nearestDouble (signBit x) n 1 := by
  obtain ⟨significand, exponent, hofFloat, -⟩ := ofFloat_of_isFinite h
  have value : magnitude x = significand * 2 ^ exponent := by
    rw [magnitude, hofFloat]
  have hbottom : 0 < (scaleByTwo exponent significand 1).2 := scaleByTwo_pos _ Nat.one_pos
  have half := abs_roundDiv_sub_le .up (scaleByTwo exponent significand 1).1 hbottom
  rw [scaleByTwo_div, Nat.cast_one, div_one, ← value] at half
  rw [roundDouble, hofFloat]
  dsimp only
  generalize roundDiv .up (scaleByTwo exponent significand 1).1
    (scaleByTwo exponent significand 1).2 = rounded at *
  have close : |(rounded : ℚ) - n| < 1 := by
    calc |(rounded : ℚ) - n|
      _ ≤ |(rounded : ℚ) - magnitude x| + |magnitude x - n| := abs_sub_le _ _ _
      _ < 1 := by linarith
  have close' : |(rounded : Int) - n| < 1 := by exact_mod_cast close
  have same := Int.abs_lt_one_iff.1 close'
  rw [show rounded = n by omega]

end Exact

end CampusQuery
