import CampusQuery.Proofs.Data.Lists
import CampusQuery.Proofs.Number.Bounds
import CampusQuery.Proofs.Number.Shortest

/-!
The size of decimals and of their doubles. Main statement: the decimal mean of doubles, where there
is one, is finite.
-/

namespace CampusQuery

-- Powers are those of natural numbers, not those of a monoid.
attribute [local instance (high)] instPowNat

section Whole

variable {num den n width : Nat}

theorem roundDiv_le_self (tie : Tie) (hden : 0 < den) : roundDiv tie num den ≤ num := by
  obtain ⟨above, -⟩ := roundDiv_near tie num den hden
  by_contra! larger
  have := Nat.mul_le_mul_right den larger
  have := Nat.le_mul_of_pos_right num hden
  rw [Nat.succ_mul] at *
  omega

/-- The double nearest to a whole number of so many bits. -/
theorem nearestBits_lt (h : n < 2 ^ width) : nearestBits n 1 < (width + 1024) * 2 ^ 52 := by
  rcases Nat.eq_zero_or_pos n with rfl | hn
  · rw [nearestBits, if_pos rfl]
    omega
  have hq : (0 : ℚ) < (n : ℚ) / (1 : Nat) := by positivity
  have least : 0 ≤ Int.log 2 ((n : ℚ) / (1 : Nat)) := by
    rw [← two_zpow_le_iff hq, zpow_zero, Nat.cast_one, div_one]
    exact_mod_cast hn
  have most : Int.log 2 ((n : ℚ) / (1 : Nat)) < width := by
    rw [← lt_two_zpow_iff hq, zpow_natCast, Nat.cast_one, div_one]
    exact_mod_cast h
  have upper := (lt_two_zpow_iff hq).2 (Int.lt_succ (Int.log 2 ((n : ℚ) / (1 : Nat))))
  have exponent : unitExponent n 1 = Int.log 2 ((n : ℚ) / (1 : Nat)) - 52 := by
    rw [unitExponent_eq hn Nat.one_pos]
    omega
  rw [nearestBits_eq hn exponent]
  generalize Int.log 2 ((n : ℚ) / (1 : Nat)) = log at *
  have scaled := scaleByTwo_lt _ (n := 2 ^ 53) Nat.one_pos <|
    calc (n : ℚ) / (1 : Nat) * 2 ^ (-(log - 52))
      _ < 2 ^ (log + 1) * 2 ^ (-(log - 52)) := by gcongr
      _ = (2 ^ 53 : Nat) := by
        rw [← zpow_add₀ two_ne_zero, show log + 1 + -(log - 52) = (53 : Nat) by omega, zpow_natCast,
          Nat.cast_pow, Nat.cast_ofNat]
  have rounded := roundDiv_le .even scaled
  omega

theorem magnitudeBits_nearestDouble_lt (negative : Bool) (h : n < 2 ^ width) :
    magnitudeBits (nearestDouble negative n 1) < (width + 1024) * 2 ^ 52 := by
  rw [nearestDouble, magnitudeBits_ofMagnitude (nearestBits_le n 1)]
  exact nearestBits_lt h

theorem isFinite_doubleOfInt {i : Int} (h : i.natAbs < 2 ^ width) (hwidth : width ≤ 1023) :
    IsFinite (doubleOfInt i) :=
  Nat.lt_of_lt_of_le (magnitudeBits_nearestDouble_lt _ h) (Nat.mul_le_mul_right _ (by omega))

/-- Rounding to a whole number makes a double at most a little larger. -/
theorem magnitudeBits_roundDouble_lt {x : Float} {b : Nat} (h : magnitudeBits x < b * 2 ^ 52)
    (least : 1023 ≤ b) (hb : b ≤ 2047) : magnitudeBits (roundDouble x) < (b + 2) * 2 ^ 52 := by
  obtain ⟨significand, exponent, hofFloat, ⟨hlt, hleast, hnormal⟩, hbits⟩ :=
    ofFloat_of_isFinite (Nat.lt_of_lt_of_le h (Nat.mul_le_mul_right _ hb))
  have most : exponent + 53 ≤ (b - 1023 : Nat) := by
    rcases hnormal with rfl | hnormal <;> omega
  have below := scaleByTwo_lt _ (n := 2 ^ (b - 1023)) Nat.one_pos <|
    calc (significand : ℚ) / (1 : Nat) * 2 ^ exponent
      _ = significand * 2 ^ exponent := by rw [Nat.cast_one, div_one]
      _ < 2 ^ (53 : Int) * 2 ^ exponent := by
        have : (significand : ℚ) < 2 ^ (53 : Int) := by exact_mod_cast hlt
        gcongr
      _ = 2 ^ (exponent + 53) := by rw [← zpow_add₀ two_ne_zero, add_comm]
      _ ≤ 2 ^ ((b - 1023 : Nat) : Int) := zpow_le_zpow_right₀ (by norm_num) most
      _ = (2 ^ (b - 1023) : Nat) := by rw [zpow_natCast, Nat.cast_pow, Nat.cast_ofNat]
  have rounded : roundDiv .up (scaleByTwo exponent significand 1).1
      (scaleByTwo exponent significand 1).2 < 2 ^ (b - 1022) := by
    have := roundDiv_le .up below
    have hsucc : 2 ^ (b - 1022) = 2 * 2 ^ (b - 1023) := by
      rw [show b - 1022 = b - 1023 + 1 by omega, Nat.pow_succ, Nat.mul_comm]
    have := Nat.two_pow_pos (b - 1023)
    omega
  have bits := magnitudeBits_nearestDouble_lt (signBit x) rounded
  simp only [roundDouble, hofFloat]
  exact Nat.lt_of_lt_of_le bits (Nat.mul_le_mul_right _ (by omega))

/-- A whole number and a fraction of it in units of `scale`, rounded to such units. -/
theorem isFinite_rounded {whole part scale : Float} (hwhole : magnitudeBits whole < 1120 * 2 ^ 52)
    (hpart : magnitudeBits part < 1031 * 2 ^ 52) (least : 1023 * 2 ^ 52 ≤ magnitudeBits scale)
    (most : magnitudeBits scale < 1031 * 2 ^ 52) :
    IsFinite (roundDouble ((whole + part / scale) * scale) / scale) := by
  have finite := Nat.lt_trans most (show _ < 2047 * 2 ^ 52 by decide)
  have fraction : magnitudeBits (part / scale) < 1120 * 2 ^ 52 :=
    magnitudeBits_div_lt hpart least finite (by omega) (by omega) (by omega) (by omega) (by omega)
  have sum := magnitudeBits_add_lt hwhole fraction (by omega)
  have scaled : magnitudeBits ((whole + part / scale) * scale) < 1134 * 2 ^ 52 :=
    magnitudeBits_mul_lt sum most (by omega) (by omega) (by omega) (by omega) (by omega)
  have rounded := magnitudeBits_roundDouble_lt scaled (by omega) (by omega)
  have quotient : magnitudeBits (roundDouble ((whole + part / scale) * scale) / scale) <
      1995 * 2 ^ 52 :=
    magnitudeBits_div_lt rounded least finite (by omega) (by omega) (by omega) (by omega) (by omega)
  exact Nat.lt_trans quotient (by decide)

end Whole

namespace Decimal

/-- The coefficient has at most 96 bits. -/
def Bounded (d : Decimal) : Prop :=
  d.coefficient.natAbs < capacity

variable {coefficient places : Nat}

theorem bounded_ofParts (negative : Bool) (h : coefficient < capacity) :
    (ofParts negative coefficient places).Bounded := by
  cases negative <;> simpa [ofParts, Bounded] using h

section Digits

theorem halve_lt (count : Nat) (h : coefficient < capacity) :
    (halve count coefficient places).1 < capacity := by
  induction count generalizing coefficient places with
  | zero => exact h
  | succ count ih =>
    rw [halve]
    split
    · next room => exact ih room.2
    · exact ih (Nat.lt_of_le_of_lt (Nat.div_le_self _ _) h)

theorem limitPlaces_le : (limitPlaces coefficient places).1 ≤ coefficient := by
  induction places generalizing coefficient with
  | zero => exact Nat.le_refl _
  | succ places ih =>
    rw [limitPlaces]
    split
    · exact Nat.le_refl _
    split
    · exact Nat.zero_le _
    · exact Nat.le_trans ih (roundDiv_le_self .up (by decide))

theorem limitDigits_le : (limitDigits coefficient places).1 ≤ coefficient := by
  induction places generalizing coefficient with
  | zero => exact Nat.le_refl _
  | succ places ih =>
    rw [limitDigits]
    split
    · exact Nat.le_refl _
    · exact Nat.le_trans ih (roundDiv_le_self .up (by decide))

theorem stripZeros_le : (stripZeros coefficient places).1 ≤ coefficient := by
  induction places generalizing coefficient with
  | zero => exact Nat.le_refl _
  | succ places ih =>
    rw [stripZeros]
    split
    · exact Nat.le_trans ih (Nat.div_le_self _ _)
    · exact Nat.le_refl _

theorem dropZeros_le (count : Nat) : (dropZeros count coefficient places).1 ≤ coefficient := by
  rw [dropZeros]
  split
  · exact Nat.div_le_self _ _
  · exact Nat.le_refl _

theorem dropEights_le : (dropEights coefficient places).1 ≤ coefficient := by
  induction coefficient, places using dropEights.induct with
  | case1 coefficient places clear ih =>
    rw [dropEights, if_pos clear]
    exact Nat.le_trans ih (Nat.div_le_self _ _)
  | case2 coefficient places clear =>
    rw [dropEights, if_neg clear]
  | case3 coefficient places few =>
    rw [dropEights]
    exact few

theorem tidy_le : (tidy coefficient places).1 ≤ coefficient :=
  calc (tidy coefficient places).1
    _ ≤ _ := dropZeros_le 1
    _ ≤ _ := dropZeros_le 2
    _ ≤ _ := dropZeros_le 4
    _ ≤ coefficient := dropEights_le

end Digits

variable {d a b : Decimal} {ds : List Decimal}

theorem bounded_zero : zero.Bounded :=
  Nat.two_pow_pos 96

theorem significand_lt {x : Float} {negative : Bool} {significand : Nat} {exponent : Int}
    (h : BinaryValue.ofFloat x = .finite negative significand exponent) : significand < 2 ^ 53 := by
  simp only [BinaryValue.ofFloat] at h
  split at h
  · split at h <;> contradiction
  split at h
  · cases h
    omega
  · cases h
    omega

theorem bounded_ofDouble? {x : Float} (h : ofDouble? x = some d) : d.Bounded := by
  rw [ofDouble?] at h
  split at h
  · simp only at h
    split at h
    · next fits =>
      cases h
      exact bounded_ofParts _ fits
    · contradiction
  · next significand shift hx =>
    split at h
    · cases h
      exact bounded_zero
    · have start : significand < capacity :=
        Nat.lt_of_lt_of_le (significand_lt hx) (Nat.pow_le_pow_right (by decide) (by decide))
      cases h
      apply bounded_ofParts
      calc _
        _ ≤ _ := stripZeros_le
        _ ≤ _ := limitDigits_le
        _ ≤ _ := limitPlaces_le
        _ < capacity := halve_lt (shift + 1) start
  · contradiction

theorem bounded_fit? {negative : Bool} {magnitude : Nat}
    (h : fit? negative magnitude places = some d) : d.Bounded := by
  rw [fit?] at h
  obtain ⟨dropped, -, hdropped⟩ := List.exists_of_findSome?_eq_some h
  simp only at hdropped
  split at hdropped
  · next fits =>
    cases hdropped
    exact bounded_ofParts _ fits
  · contradiction

theorem bounded_add? (ha : a.Bounded) (hb : b.Bounded) (h : add? a b = some d) : d.Bounded := by
  rw [add?] at h
  split at h
  · cases h
    exact hb
  split at h
  · cases h
    exact ha
  · exact bounded_fit? h

theorem bounded_foldlM_add? {start : Decimal} (hstart : start.Bounded) (hds : ∀ d ∈ ds, d.Bounded)
    (h : ds.foldlM add? start = some d) : d.Bounded := by
  induction ds generalizing start with
  | nil =>
    cases h
    exact hstart
  | cons first ds ih =>
    rw [List.forall_mem_cons] at hds
    rw [List.foldlM_cons] at h
    obtain ⟨next, hnext, hrest⟩ := Option.bind_eq_some_iff.1 h
    exact ih (bounded_add? hstart hds.1 hnext) hds.2 hrest

theorem bounded_sum? (hds : ∀ d ∈ ds, d.Bounded) (h : sum? ds = some d) : d.Bounded :=
  bounded_foldlM_add? bounded_zero hds h

theorem bounded_divNat? {n : Nat} (hn : 0 < n) (ha : a.Bounded) (h : divNat? a n = some d) :
    d.Bounded := by
  simp only [divNat?] at h
  split at h
  · cases h
    exact bounded_zero
  split at h
  · cases h
    exact bounded_ofParts _ (Nat.lt_of_le_of_lt (Nat.div_le_self _ _) ha)
  · obtain ⟨most, hmost, hd⟩ := Option.bind_eq_some_iff.1 h
    have room := List.find?_some hmost
    rw [decide_eq_true_eq] at room
    cases hd
    refine bounded_ofParts _ (Nat.lt_of_le_of_lt tidy_le ?_)
    cases hexact : [9, 18, 27].find? fun extra =>
        decide (extra ≤ most ∧ a.coefficient.natAbs * 10 ^ extra % n = 0) with
    | none => exact room
    | some extra =>
      have found := List.find?_some hexact
      rw [decide_eq_true_eq] at found
      obtain ⟨hle, hdvd⟩ := found
      have smaller : a.coefficient.natAbs * 10 ^ extra ≤ a.coefficient.natAbs * 10 ^ most :=
        Nat.mul_le_mul_left _ (Nat.pow_le_pow_right (by decide) hle)
      rw [Option.getD_some, roundDiv_of_dvd .even hn (Nat.dvd_of_mod_eq_zero hdvd)]
      refine Nat.lt_of_le_of_lt (le_roundDiv .even hn ?_) room
      exact Nat.le_trans (Nat.div_mul_le_self _ _) smaller

theorem bounded_toCents (h : d.Bounded) : d.toCents.Bounded := by
  rw [toCents]
  split
  · exact bounded_zero
  split
  · exact h
  · exact bounded_ofParts _ (Nat.lt_of_le_of_lt (roundDiv_le_self .up (Nat.pow_pos (by decide))) h)

theorem places_toCents_le (d : Decimal) : d.toCents.places ≤ 2 := by
  rw [toCents]
  split
  · exact Nat.le_refl 2
  split
  · assumption
  · exact Nat.le_refl 2

theorem bounded_mean? (hds : ∀ d ∈ ds, d.Bounded) (h : mean? ds = some d) :
    d.Bounded ∧ d.places ≤ 2 := by
  rw [mean?] at h
  split at h
  · contradiction
  · next filled =>
    obtain ⟨total, htotal, h⟩ := Option.bind_eq_some_iff.1 h
    obtain ⟨quotient, hquotient, h⟩ := Option.bind_eq_some_iff.1 h
    cases h
    have count : 0 < ds.length := by
      rw [List.length_pos_iff, ne_eq, ← List.isEmpty_iff]
      exact filled
    have within := bounded_divNat? count (bounded_sum? hds htotal) hquotient
    exact ⟨bounded_toCents within, places_toCents_le quotient⟩

/-- A place is no less than one. -/
theorem le_magnitudeBits_unit {places : Nat} (h : places = 1 ∨ places = 2) :
    1023 * 2 ^ 52 ≤ magnitudeBits (nearestDouble false (10 ^ places) 1) := by
  rcases h with rfl | rfl <;> decide +kernel

/-- A decimal in cents has a finite double. -/
theorem isFinite_toDouble (h : d.Bounded) (hplaces : d.places ≤ 2) : IsFinite d.toDouble := by
  rw [toDouble]
  split
  · exact isFinite_doubleOfInt h (by decide)
  · have hunit : 10 ^ d.places < 2 ^ 7 :=
      Nat.lt_of_le_of_lt (Nat.pow_le_pow_right (by decide) hplaces) (by decide)
    have least := le_magnitudeBits_unit (show d.places = 1 ∨ d.places = 2 by omega)
    have most := magnitudeBits_nearestDouble_lt false hunit
    have hwhole := magnitudeBits_nearestDouble_lt false
      (Nat.lt_of_le_of_lt (Nat.div_le_self d.coefficient.natAbs (10 ^ d.places)) h)
    have hpart := magnitudeBits_nearestDouble_lt false
      (Nat.lt_trans (Nat.mod_lt d.coefficient.natAbs (Nat.pow_pos (by decide))) hunit)
    simp only
    generalize nearestDouble false (10 ^ d.places) 1 = scale at *
    generalize nearestDouble false (d.coefficient.natAbs / 10 ^ d.places) 1 = whole at *
    generalize nearestDouble false (d.coefficient.natAbs % 10 ^ d.places) 1 = part at *
    have value : IsFinite (if d.coefficient.natAbs % 10 ^ d.places = 0 then whole
        else roundDouble ((whole + part / scale) * scale) / scale) := by
      split
      · exact Nat.lt_trans hwhole (by decide)
      · exact isFinite_rounded hwhole hpart least most
    split
    · rw [IsFinite, magnitudeBits_neg (isNaN_of_isFinite value)]
      exact value
    · exact value

end Decimal

theorem isFinite_decimalMean? {xs : List Float} {mean : Float} (h : decimalMean? xs = some mean) :
    IsFinite mean := by
  obtain ⟨ds, hds, h⟩ := Option.bind_eq_some_iff.1 h
  obtain ⟨d, hd, h⟩ := Option.bind_eq_some_iff.1 h
  cases h
  have members : ∀ d ∈ ds, d.Bounded := by
    intro d hd
    obtain ⟨x, -, hx⟩ := exists_of_mem_mapM hds hd
    exact Decimal.bounded_ofDouble? hx
  obtain ⟨bounded, places⟩ := Decimal.bounded_mean? members hd
  exact Decimal.isFinite_toDouble bounded places

end CampusQuery
