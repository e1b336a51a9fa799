import CampusQuery.Proofs.Number.Accuracy
import CampusQuery.Proofs.Number.Average

/-!
Decimal means as doubles. Main statement: the mean of doubles of few enough digits is the exact mean
of their decimals rounded once, and below 10^13 it is printed as the nearest double.
-/

namespace CampusQuery

namespace Decimal

section Parts

variable {whole part unit : Nat}

theorem div_nearestDouble (hpart : part < 2 ^ 53) (hunit : 0 < unit) (hunit' : unit < 2 ^ 53) :
    nearestDouble false part 1 / nearestDouble false unit 1 = nearestDouble false part unit := by
  obtain ⟨partFinite, partValue⟩ := nearestDouble_nat hpart
  obtain ⟨unitFinite, unitValue⟩ := nearestDouble_nat hunit'
  have filled : magnitude (nearestDouble false unit 1) ≠ 0 := by
    rw [unitValue]
    exact_mod_cast hunit.ne'
  rw [div_eq_nearestDouble partFinite unitFinite filled hunit (by rw [partValue, unitValue]),
    signBit_nearestDouble, signBit_nearestDouble]
  rfl

/-- The whole part and the fraction are added with an error that leaves three digits. -/
theorem near_sum (hwhole : whole < 2 ^ 44) (hpart : part < unit) (hunit : unit ≤ 100) :
    ∃ x, nearestDouble false whole 1 + nearestDouble false part 1 / nearestDouble false unit 1 = x ∧
      IsFinite x ∧ signBit x = false ∧ |magnitude x - (whole + part / unit)| ≤ 3 / 1024 := by
  have hpos : 0 < unit := Nat.lt_of_le_of_lt (Nat.zero_le part) hpart
  obtain ⟨wholeFinite, wholeValue⟩ := nearestDouble_nat (show whole < 2 ^ 53 by omega)
  have below : (part : ℚ) / unit < 2 ^ (0 : Int) := by
    rw [zpow_zero, div_lt_one (by exact_mod_cast hpos)]
    exact_mod_cast hpart
  obtain ⟨fractionFinite, fractionNear⟩ := nearestDouble_near hpos below (by decide) (by decide) false
  rw [div_nearestDouble (by omega) hpos (by omega)]
  have fractionSign := signBit_nearestDouble false part unit
  have fractionPos := magnitude_nonneg (nearestDouble false part unit)
  generalize nearestDouble false part unit = fraction at *
  obtain ⟨num, den, hden, sum⟩ :=
    exists_quotient (add_nonneg (Nat.cast_nonneg (α := ℚ) whole) fractionPos)
  have added := add_eq_nearestDouble wholeFinite fractionFinite (signBit_nearestDouble false whole 1)
    fractionSign hden (by rw [sum, wholeValue])
  have tiny : (2 : ℚ) ^ ((0 : Int) - 54) ≤ 1 / 1024 := by norm_num
  have fractionNear := fractionNear.trans tiny
  have small : (num : ℚ) / den < 2 ^ (45 : Int) := by
    have hwhole₁ : (whole : ℚ) < 2 ^ 44 := by exact_mod_cast hwhole
    have wide : (2 : ℚ) ^ (45 : Int) = 2 ^ 45 := by norm_num
    have above := (abs_le.1 fractionNear).2
    rw [zpow_zero] at below
    rw [sum, wide]
    linarith
  obtain ⟨sumFinite, sumNear⟩ := nearestDouble_near hden small (by decide) (by decide) false
  have step : (2 : ℚ) ^ ((45 : Int) - 54) = 2 / 1024 := by norm_num
  rw [sum, step] at sumNear
  refine ⟨_, added, sumFinite, signBit_nearestDouble false num den, ?_⟩
  calc |magnitude (nearestDouble false num den) - (whole + part / unit)|
    _ ≤ |magnitude (nearestDouble false num den) - (whole + magnitude fraction)| +
        |whole + magnitude fraction - (whole + part / unit)| := abs_sub_le _ _ _
    _ ≤ 3 / 1024 := by
      rw [add_sub_add_left_eq_sub]
      linarith

/-- Without its places the sum is nearer to its digits than to any other whole number. -/
theorem near_product {x : Float} (finite : IsFinite x) (positive : signBit x = false)
    (hwhole : whole < 2 ^ 44) (hpart : part < unit) (hunit : unit ≤ 100)
    (near : |magnitude x - (whole + part / unit)| ≤ 3 / 1024) :
    roundDouble (x * nearestDouble false unit 1) = nearestDouble false (whole * unit + part) 1 := by
  have hpos : 0 < unit := Nat.lt_of_le_of_lt (Nat.zero_le part) hpart
  obtain ⟨unitFinite, unitValue⟩ := nearestDouble_nat (show unit < 2 ^ 53 by omega)
  have hunit₀ : (0 : ℚ) < unit := by exact_mod_cast hpos
  have hunit₁ : (unit : ℚ) ≤ 100 := by exact_mod_cast hunit
  obtain ⟨num, den, hden, product⟩ := exists_quotient (mul_nonneg (magnitude_nonneg x) hunit₀.le)
  have multiplied := mul_eq_nearestDouble finite unitFinite hden (by rw [product, unitValue])
  rw [positive, signBit_nearestDouble] at multiplied
  have small : (num : ℚ) / den < 2 ^ (51 : Int) := by
    have hwhole₁ : (whole : ℚ) < 2 ^ 44 := by exact_mod_cast hwhole
    have below : (part : ℚ) / unit < 1 := by
      rw [div_lt_one hunit₀]
      exact_mod_cast hpart
    have wide : (2 : ℚ) ^ (51 : Int) = 2 ^ 51 := by norm_num
    have above := (abs_le.1 near).2
    rw [product, wide]
    calc magnitude x * unit
      _ ≤ magnitude x * 100 := mul_le_mul_of_nonneg_left hunit₁ (magnitude_nonneg x)
      _ < 2 ^ 51 := by linarith
  obtain ⟨productFinite, productNear⟩ := nearestDouble_near hden small (by decide) (by decide) false
  have eighth : (2 : ℚ) ^ ((51 : Int) - 54) = 1 / 8 := by norm_num
  rw [product, eighth] at productNear
  have scaled : |magnitude x * unit - (whole * unit + part)| ≤ 300 / 1024 := by
    calc |magnitude x * unit - (whole * unit + part)|
      _ = |magnitude x - (whole + part / unit)| * unit := by
        rw [← abs_of_pos hunit₀, ← abs_mul, abs_of_pos hunit₀, sub_mul, add_mul,
          div_mul_cancel₀ _ hunit₀.ne']
      _ ≤ 3 / 1024 * 100 := by gcongr
      _ = 300 / 1024 := by norm_num
  have close : |magnitude (nearestDouble false num den) - (whole * unit + part : Nat)| < 1 / 2 := by
    push_cast
    calc |magnitude (nearestDouble false num den) - (whole * unit + part)|
      _ ≤ |magnitude (nearestDouble false num den) - magnitude x * unit| +
          |magnitude x * unit - (whole * unit + part)| := abs_sub_le _ _ _
      _ < 1 / 2 := by linarith
  have signs : (false ^^ false) = false := rfl
  rw [multiplied, signs, roundDouble_eq productFinite close, signBit_nearestDouble]

end Parts

/-- A decimal in cents that is not too large becomes the double that is nearest to it. -/
theorem toDouble_eq {d : Decimal} (hplaces : d.places ≤ 2)
    (size : d.coefficient.natAbs < 2 ^ 44 * 10 ^ d.places) :
    d.toDouble = nearestDouble (d.coefficient < 0) d.coefficient.natAbs (10 ^ d.places) := by
  have hunit : 0 < 10 ^ d.places := Nat.pow_pos (by decide)
  have hunit' : 10 ^ d.places ≤ 100 := Nat.pow_le_pow_right (by decide) hplaces
  rw [toDouble]
  split
  · next none =>
    rw [none]
    rfl
  generalize 10 ^ d.places = unit at *
  generalize d.coefficient.natAbs = digits at *
  have hwhole : digits / unit < 2 ^ 44 := (Nat.div_lt_iff_lt_mul hunit).2 size
  have value : (if digits % unit = 0 then nearestDouble false (digits / unit) 1
      else roundDouble ((nearestDouble false (digits / unit) 1 +
        nearestDouble false (digits % unit) 1 / nearestDouble false unit 1) *
          nearestDouble false unit 1) / nearestDouble false unit 1) =
      nearestDouble false digits unit := by
    split
    · next exact =>
      apply nearestDouble_congr false Nat.one_pos hunit
      rw [Nat.cast_div (Nat.dvd_of_mod_eq_zero exact) (by positivity), Nat.cast_one, div_one]
    · obtain ⟨x, sum, finite, positive, near⟩ := near_sum hwhole (Nat.mod_lt digits hunit) hunit'
      rw [sum, near_product finite positive hwhole (Nat.mod_lt digits hunit) hunit' near,
        Nat.div_add_mod' digits unit]
      have hdigits : digits < 2 ^ 44 * 100 := Nat.lt_of_lt_of_le size (Nat.mul_le_mul_left _ hunit')
      exact div_nearestDouble (by omega) hunit (by omega)
  simp only
  rw [value, neg_nearestDouble]
  by_cases negative : d.coefficient < 0
  · rw [if_pos negative, decide_eq_true negative]
    rfl
  · rw [if_neg negative, decide_eq_false negative]

/-- The double nearest to a number. -/
def nearestTo (q : ℚ) : Float :=
  nearestDouble (q < 0) q.num.natAbs q.den

theorem toDouble_eq_nearestTo {d : Decimal} (hplaces : d.places ≤ 2) (size : |d.value| < 2 ^ 44) :
    d.toDouble = nearestTo d.value := by
  have unit : (0 : ℚ) < 10 ^ d.places := by positivity
  have bound : (d.coefficient.natAbs : ℚ) < 2 ^ 44 * 10 ^ d.places := by
    rw [natAbs_coefficient]
    gcongr
  have sign : d.coefficient < 0 ↔ d.value < 0 := by
    rw [value, div_lt_iff₀ unit, zero_mul]
    exact Int.cast_lt_zero.symm
  rw [toDouble_eq hplaces (by exact_mod_cast bound), nearestTo]
  simp only [sign]
  apply nearestDouble_congr _ (Nat.pow_pos (by decide)) d.value.den_pos
  have whole : ((d.value.num.natAbs : Nat) : ℚ) / d.value.den = |d.value| := by
    rw [Nat.cast_natAbs, Int.cast_abs, ← abs_of_pos (show (0 : ℚ) < d.value.den by
      exact_mod_cast d.value.den_pos), ← abs_div, Rat.num_div_den]
  rw [whole, natAbs_coefficient, Nat.cast_pow, Nat.cast_ofNat, mul_div_cancel_right₀ _ unit.ne']

theorem places_mean?_le {ds : List Decimal} {mean : Decimal} (h : mean? ds = some mean) :
    mean.places ≤ 2 := by
  rw [mean?] at h
  split at h
  · contradiction
  · obtain ⟨total, -, h⟩ := Option.bind_eq_some_iff.1 h
    obtain ⟨quotient, -, h⟩ := Option.bind_eq_some_iff.1 h
    cases h
    exact places_toCents_le quotient

/-- The mean of numbers below 10^13 is below the numbers that doubles tell apart by cents. -/
theorem abs_roundCents_mean_lt {ds : List Decimal} (filled : ds ≠ [])
    (size : ∀ d ∈ ds, |d.value| < 10 ^ 13) :
    |roundCents ((ds.map value).sum / ds.length)| < 2 ^ 44 := by
  have hcount : (0 : ℚ) < ds.length := by exact_mod_cast List.length_pos_iff.2 filled
  have below : |(ds.map value).sum / ds.length| < 10 ^ 13 := by
    rw [abs_div, abs_of_pos hcount, div_lt_iff₀' hcount]
    exact (abs_sum_value_le ds).trans_lt (sum_abs_value_lt filled size)
  obtain ⟨lower, upper⟩ := abs_lt.1 below
  have top : roundCents (10 ^ 13) = 10 ^ 13 := by norm_num [roundCents]
  have high := roundCents_mono upper.le
  have low := roundCents_mono lower.le
  rw [roundCents_neg, top] at low
  rw [top] at high
  rw [abs_lt]
  constructor <;> linarith

end Decimal

/-- The double that is printed for a mean of numbers below 10^13. -/
theorem decimalMean?_eq_nearestTo {xs : List Float} {ds : List Decimal} {k m : Nat}
    (converted : xs.mapM Decimal.ofDouble? = some ds) (filled : ds ≠ []) (hk : 3 ≤ k)
    (narrow : Decimal.Narrow k m ds) (size : ∀ d ∈ ds, |d.value| < 10 ^ 13) :
    decimalMean? xs =
      some (Decimal.nearestTo (roundCents ((ds.map Decimal.value).sum / ds.length))) := by
  obtain ⟨mean, cents, double, value⟩ := exists_meanInCents? converted filled hk narrow
  have places : mean.places ≤ 2 := by
    rw [meanInCents?, converted, Option.bind_some] at cents
    exact Decimal.places_mean?_le cents
  have small : |mean.value| < 2 ^ 44 := value ▸ Decimal.abs_roundCents_mean_lt filled size
  rw [double, Decimal.toDouble_eq_nearestTo places small, value]

/-- The mean of doubles is the exact mean of their decimals, rounded once to two places with a half
going away from zero: the limited quotient before that rounding never shows. So the value of the
decimal is the same for every order of the doubles, and it lies between the least and the greatest
decimal, each rounded in the same way. The places of the decimal may depend on the order; below 10^13
the double that is printed does not show them and is the nearest one, in every order. -/
theorem meanInCents?_exact {xs : List Float} {ds : List Decimal}
    (converted : xs.mapM Decimal.ofDouble? = some ds) (filled : xs ≠ []) {k m : Nat} (hk : 3 ≤ k)
    (digits : ∀ d ∈ ds, ∃ i : ℤ, d.value * 10 ^ k = i) (size : ∀ d ∈ ds, |d.value| < 10 ^ m)
    (room : xs.length * 10 ^ (k + m) ≤ 10 ^ 28) :
    ∃ mean, meanInCents? xs = some mean ∧ decimalMean? xs = some mean.toDouble ∧
      mean.value = roundCents ((ds.map Decimal.value).sum / xs.length) ∧
      (∀ ys : List Float, ys.Perm xs → ∃ mean', meanInCents? ys = some mean' ∧
        decimalMean? ys = some mean'.toDouble ∧ mean'.value = mean.value) ∧
      (∀ least ∈ ds, (∀ d ∈ ds, least.value ≤ d.value) → roundCents least.value ≤ mean.value) ∧
      (∀ greatest ∈ ds, (∀ d ∈ ds, d.value ≤ greatest.value) →
        mean.value ≤ roundCents greatest.value) ∧
      ((∀ d ∈ ds, |d.value| < 10 ^ 13) → ∀ ys : List Float, ys.Perm xs →
        decimalMean? ys = some (Decimal.nearestTo mean.value)) := by
  have length : xs.length = ds.length := (mapM_eq_some_iff.1 converted).length_eq
  have count : 0 < xs.length := List.length_pos_iff.2 filled
  rw [length] at room count ⊢
  have hcount : (0 : ℚ) < ds.length := by exact_mod_cast count
  have narrow : Decimal.Narrow k m ds := ⟨digits, size, room⟩
  obtain ⟨mean, cents, double, value⟩ :=
    exists_meanInCents? converted (List.length_pos_iff.1 count) hk narrow
  have reordered : ∀ ys : List Float, ys.Perm xs → ∃ es, ys.mapM Decimal.ofDouble? = some es ∧
      es.Perm ds ∧ es ≠ [] := by
    intro ys hys
    obtain ⟨es, converted', perm⟩ := exists_perm_of_mapM converted hys
    exact ⟨es, converted', perm, List.length_pos_iff.1 (perm.length_eq ▸ count)⟩
  refine ⟨mean, cents, double, value, fun ys hys => ?_, fun least _ below => ?_,
    fun greatest _ above => ?_, fun small ys hys => ?_⟩
  · obtain ⟨es, converted', perm, filled'⟩ := reordered ys hys
    obtain ⟨mean', cents', double', value'⟩ :=
      exists_meanInCents? converted' filled' hk (narrow.of_perm perm)
    refine ⟨mean', cents', double', ?_⟩
    rw [value', value, (perm.map Decimal.value).sum_eq, perm.length_eq]
  · have total := List.card_nsmul_le_sum (ds.map Decimal.value) least.value (by simpa using below)
    rw [List.length_map, nsmul_eq_mul] at total
    rw [value]
    exact roundCents_mono ((le_div_iff₀' hcount).2 total)
  · have total :=
      List.sum_le_card_nsmul (ds.map Decimal.value) greatest.value (by simpa using above)
    rw [List.length_map, nsmul_eq_mul] at total
    rw [value]
    exact roundCents_mono ((div_le_iff₀' hcount).2 total)
  · obtain ⟨es, converted', perm, filled'⟩ := reordered ys hys
    have small' : ∀ d ∈ es, |d.value| < 10 ^ 13 := fun d hd => small d (perm.subset hd)
    rw [decimalMean?_eq_nearestTo converted' filled' hk (narrow.of_perm perm) small', value,
      (perm.map Decimal.value).sum_eq, perm.length_eq]

/-- The mean -1.255 lies half way between two cents. -/
theorem meanInCents?_exact_sample : ∃ mean, meanInCents? [-1.25, -1.26] = some mean ∧
    decimalMean? [-1.26, -1.25] = some (Decimal.nearestTo mean.value) ∧
      mean.value = -126 / 100 := by
  have converted : [-1.25, -1.26].mapM Decimal.ofDouble? = some [⟨-125, 2⟩, ⟨-126, 2⟩] := by
    decide +kernel
  have digits : ∀ d ∈ [(⟨-125, 2⟩ : Decimal), ⟨-126, 2⟩], ∃ i : ℤ, d.value * 10 ^ 3 = i := by
    rw [List.forall_mem_cons, List.forall_mem_singleton]
    exact ⟨⟨-1250, by norm_num [Decimal.value]⟩, ⟨-1260, by norm_num [Decimal.value]⟩⟩
  have size : ∀ d ∈ [(⟨-125, 2⟩ : Decimal), ⟨-126, 2⟩], |d.value| < 10 ^ 1 := by
    norm_num [Decimal.value]
  have small : ∀ d ∈ [(⟨-125, 2⟩ : Decimal), ⟨-126, 2⟩], |d.value| < 10 ^ 13 := by
    norm_num [Decimal.value]
  obtain ⟨mean, cents, -, value, -, -, -, reordered⟩ :=
    meanInCents?_exact converted (by simp) (by decide) digits size (by decide)
  refine ⟨mean, cents, reordered small _ (List.Perm.swap _ _ []), value.trans ?_⟩
  norm_num [Decimal.value, roundCents]

/-- The first two cancel, and the sum goes on without their places. -/
def cancelling : List Float :=
  [0.25, -0.25, 80000000000001.4, 80000000000001.4]

/-- The sum takes up the places of the first, and has them to the end. -/
def cancellingLast : List Float :=
  [0.25, 80000000000001.4, 80000000000001.4, -0.25]

/-- From 10^13 on the order can show: the mean 40000000000000.7 of these doubles, which have two
places and are below 10^14, is printed as a double above the nearest one when its decimal keeps two
places. -/
theorem decimalMean?_of_reordered : cancellingLast.Perm cancelling ∧
    (∃ ds, cancelling.mapM Decimal.ofDouble? = some ds ∧
      (∀ d ∈ ds, ∃ i : ℤ, d.value * 10 ^ 3 = i) ∧ ∀ d ∈ ds, |d.value| < 10 ^ 14) ∧
    cancelling.length * 10 ^ (3 + 14) ≤ 10 ^ 28 ∧
    decimalMean? cancelling = some 40000000000000.7 ∧
    decimalMean? cancellingLast = some 40000000000000.71 ∧
    decimalMean? cancelling ≠ decimalMean? cancellingLast := by
  have first : decimalMean? cancelling = some 40000000000000.7 := by decide +kernel
  have second : decimalMean? cancellingLast = some 40000000000000.71 := by decide +kernel
  have converted : cancelling.mapM Decimal.ofDouble? =
      some [⟨25, 2⟩, ⟨-25, 2⟩, ⟨800000000000014, 1⟩, ⟨800000000000014, 1⟩] := by
    decide +kernel
  refine ⟨?perm, ⟨_, converted, ?digits, ?size⟩, by decide, first, second, ?apart⟩
  case perm =>
    have moved : ([80000000000001.4, 80000000000001.4] ++ [-0.25]).Perm
        ([-0.25] ++ [80000000000001.4, 80000000000001.4]) := List.perm_append_comm
    exact moved.cons 0.25
  case digits =>
    simp only [List.forall_mem_cons, List.not_mem_nil, false_implies, implies_true, and_true]
    exact ⟨⟨250, by norm_num [Decimal.value]⟩, ⟨-250, by norm_num [Decimal.value]⟩,
      ⟨80000000000001400, by norm_num [Decimal.value]⟩,
      ⟨80000000000001400, by norm_num [Decimal.value]⟩⟩
  case size =>
    norm_num [Decimal.value]
  case apart =>
    rw [first, second]
    decide +kernel

end CampusQuery
