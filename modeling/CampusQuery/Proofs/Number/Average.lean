import CampusQuery.Proofs.Number.Mean

/-!
The accuracy of decimal means. Main statement: the mean of decimals of few enough digits is the
exact mean rounded to two places, although the quotient is rounded to fewer digits than it has.
-/

namespace CampusQuery

-- Powers are those of natural numbers, not those of a monoid.
attribute [local instance (high)] instPowNat

/-! ### Rounding to two places -/

/-- The number rounded to two places; a half goes away from zero. -/
def roundCents (x : ℚ) : ℚ :=
  if 0 ≤ x then ⌊100 * x + 1 / 2⌋ / 100 else ⌈100 * x - 1 / 2⌉ / 100

theorem roundCents_of_nonneg {x : ℚ} (h : 0 ≤ x) : roundCents x = ⌊100 * x + 1 / 2⌋ / 100 :=
  if_pos h

theorem roundCents_neg (x : ℚ) : roundCents (-x) = -roundCents x := by
  obtain h | rfl | h := lt_trichotomy x 0
  · rw [roundCents_of_nonneg (by linarith), roundCents, if_neg (by linarith),
      show 100 * -x + 1 / 2 = -(100 * x - 1 / 2) by ring, Int.floor_neg]
    push_cast
    ring
  · norm_num [roundCents]
  · rw [roundCents_of_nonneg h.le, roundCents, if_neg (by linarith),
      show 100 * -x - 1 / 2 = -(100 * x + 1 / 2) by ring, Int.ceil_neg]
    push_cast
    ring

theorem roundCents_mono : Monotone roundCents := by
  intro x y h
  unfold roundCents
  split
  · next hx =>
    rw [if_pos (hx.trans h)]
    gcongr
  · next hx =>
    split
    · next hy =>
      have below : (⌈100 * x - 1 / 2⌉ : ℚ) ≤ 0 := by
        exact_mod_cast Int.ceil_le.2 (by push_cast; linarith)
      have above : (0 : ℚ) ≤ ⌊100 * y + 1 / 2⌋ := by
        exact_mod_cast Int.le_floor.2 (by push_cast; linarith)
      linarith
    · gcongr

/-- A whole number of cents stays as it is. -/
theorem roundCents_cents (i : ℤ) : roundCents (i / 100) = i / 100 := by
  unfold roundCents
  rw [mul_div_cancel₀ (i : ℚ) (by norm_num)]
  split
  · have : ⌊(i : ℚ) + 1 / 2⌋ = i := by
      rw [Int.floor_eq_iff]
      constructor <;> linarith
    rw [this]
  · have : ⌈(i : ℚ) - 1 / 2⌉ = i := by
      rw [Int.ceil_eq_iff]
      constructor <;> linarith
    rw [this]

/-- Numbers round alike if they lie on the same side of every midpoint of two cents. -/
theorem roundCents_congr {x y : ℚ} (hx : 0 ≤ x) (hy : 0 ≤ y)
    (h : ∀ i : ℤ, (i : ℚ) - 1 / 2 ≤ 100 * x ↔ (i : ℚ) - 1 / 2 ≤ 100 * y) :
    roundCents x = roundCents y := by
  have floors : ⌊100 * x + 1 / 2⌋ = ⌊100 * y + 1 / 2⌋ := by
    apply eq_of_forall_le_iff
    intro i
    rw [Int.le_floor, Int.le_floor, ← sub_le_iff_le_add, ← sub_le_iff_le_add, h]
  rw [roundCents_of_nonneg hx, roundCents_of_nonneg hy, floors]

/-- A half goes up. -/
theorem lt_roundDiv_up {num den : Nat} (hden : 0 < den) :
    2 * num + den < 2 * ((roundDiv .up num den + 1) * den) := by
  have split := Nat.div_add_mod num den
  have small := Nat.mod_lt num hden
  rw [Nat.mul_comm] at split
  simp only [roundDiv, Nat.add_mul, Nat.one_mul]
  generalize num / den = below at *
  generalize num % den = left at *
  split
  · rw [Nat.add_mul, Nat.one_mul]
    omega
  split
  · omega
  · rw [Nat.add_mul, Nat.one_mul]
    omega

theorem floor_eq_roundDiv_up {num den : Nat} (hden : 0 < den) :
    ⌊(num : ℚ) / den + 1 / 2⌋ = roundDiv .up num den := by
  have hpos : (0 : ℚ) < den := by exact_mod_cast hden
  have above : 2 * ((roundDiv .up num den : ℚ) * den) ≤ 2 * num + den := by
    exact_mod_cast (roundDiv_near .up num den hden).1
  have below : 2 * (num : ℚ) + den < 2 * ((roundDiv .up num den + 1) * den) := by
    exact_mod_cast lt_roundDiv_up hden
  rw [Int.floor_eq_iff, Int.cast_natCast]
  constructor
  · rw [← sub_le_iff_le_add, le_div_iff₀ hpos]
    linarith
  · rw [← lt_sub_iff_add_lt, div_lt_iff₀ hpos]
    linarith

/-! ### Values of decimals -/

namespace Decimal

/-- The number that the decimal stands for. -/
def value (d : Decimal) : ℚ :=
  d.coefficient / 10 ^ d.places

@[simp] theorem value_zero : zero.value = 0 := by
  simp [value, zero]

/-- A number with a sign. -/
def signed (negative : Bool) (x : ℚ) : ℚ :=
  if negative then -x else x

theorem roundCents_signed (negative : Bool) (x : ℚ) :
    roundCents (signed negative x) = signed negative (roundCents x) := by
  cases negative
  · rfl
  · exact roundCents_neg x

theorem value_ofParts (negative : Bool) (magnitude places : Nat) :
    (ofParts negative magnitude places).value = signed negative (magnitude / 10 ^ places) := by
  cases negative
  · simp [ofParts, value, signed]
  · simp [ofParts, value, signed, neg_div]

theorem value_eq_signed (d : Decimal) :
    d.value = signed (d.coefficient < 0) (d.coefficient.natAbs / 10 ^ d.places) := by
  rw [value, signed]
  by_cases h : d.coefficient < 0
  · rw [if_pos (by simpa using h), Nat.cast_natAbs, abs_of_neg h]
    push_cast
    ring
  · rw [if_neg (by simpa using h), Nat.cast_natAbs, abs_of_nonneg (not_lt.1 h)]

/-- Cents are rounded once, and fewer than three places stay as they are. -/
theorem value_toCents (d : Decimal) : d.toCents.value = roundCents d.value := by
  rw [toCents]
  split
  · next h =>
    have zero : d.value = (0 : ℤ) / 100 := by simp [value, h]
    rw [zero, roundCents_cents]
    simp [value]
  split
  · next few =>
    have cents : d.value = (d.coefficient * 10 ^ (2 - d.places) : ℤ) / 100 := by
      rw [value, div_eq_div_iff (by positivity) (by norm_num)]
      push_cast
      rw [mul_assoc, ← pow_add, Nat.sub_add_cancel few]
      norm_num
    rw [cents, roundCents_cents]
  · next more =>
    have unit : (10 : ℚ) ^ d.places = 100 * (10 ^ (d.places - 2) : Nat) := by
      rw [← Nat.sub_add_cancel (show 2 ≤ d.places by omega), pow_add]
      push_cast
      ring
    have scaled : 100 * ((d.coefficient.natAbs : ℚ) / 10 ^ d.places) =
        d.coefficient.natAbs / (10 ^ (d.places - 2) : Nat) := by
      rw [unit, ← mul_div_assoc, mul_div_mul_left _ _ (by norm_num)]
    rw [value_ofParts, value_eq_signed, roundCents_signed, roundCents_of_nonneg (by positivity),
      scaled, floor_eq_roundDiv_up (Nat.pow_pos (by decide))]
    norm_num

section Tidy

variable {coefficient places : Nat}

theorem dropZeros_div (count : Nat) :
    ((dropZeros count coefficient places).1 : ℚ) / 10 ^ (dropZeros count coefficient places).2 =
      coefficient / 10 ^ places := by
  rw [dropZeros]
  split
  · next h =>
    obtain ⟨enough, zeros⟩ := h
    have split : (coefficient : ℚ) = (coefficient / 10 ^ count : Nat) * 10 ^ count := by
      exact_mod_cast (Nat.div_mul_cancel (Nat.dvd_of_mod_eq_zero zeros)).symm
    rw [split, ← Nat.sub_add_cancel enough, pow_add, mul_div_mul_right _ _ (by positivity),
      Nat.add_sub_cancel]
  · rfl

theorem dropEights_div : ((dropEights coefficient places).1 : ℚ) /
    10 ^ (dropEights coefficient places).2 = coefficient / 10 ^ places := by
  induction coefficient, places using dropEights.induct with
  | case1 coefficient places clear ih =>
    have split : (coefficient : ℚ) = (coefficient / 10 ^ 8 : Nat) * 10 ^ 8 := by
      exact_mod_cast (Nat.div_mul_cancel (Nat.dvd_of_mod_eq_zero clear.2)).symm
    rw [dropEights, if_pos clear, ih]
    change _ = (coefficient : ℚ) / 10 ^ (places + 8)
    rw [split, pow_add, mul_div_mul_right _ _ (by positivity)]
  | case2 coefficient places clear => rw [dropEights, if_neg clear]
  | case3 coefficient places few => rw [dropEights]; exact few

theorem tidy_div : ((tidy coefficient places).1 : ℚ) / 10 ^ (tidy coefficient places).2 =
    coefficient / 10 ^ places :=
  calc ((tidy coefficient places).1 : ℚ) / 10 ^ (tidy coefficient places).2
    _ = _ := dropZeros_div 1
    _ = _ := dropZeros_div 2
    _ = _ := dropZeros_div 4
    _ = coefficient / 10 ^ places := dropEights_div

end Tidy

/-! ### Sums -/

theorem fit?_of_lt {magnitude : Nat} (negative : Bool) (places : Nat) (h : magnitude < capacity) :
    fit? negative magnitude places = some (ofParts negative magnitude places) := by
  rw [fit?, List.range_succ_eq_map, List.findSome?_cons]
  simp [roundDiv_one, h]

theorem value_scaled (d : Decimal) {places : Nat} (h : d.places ≤ places) :
    ((d.coefficient * 10 ^ (places - d.places) : ℤ) : ℚ) = d.value * 10 ^ places := by
  rw [value, div_mul_eq_mul_div, eq_div_iff (by positivity)]
  push_cast
  rw [mul_assoc, ← pow_add, Nat.sub_add_cancel h]

theorem value_ofParts_int (i : ℤ) (places : Nat) :
    (ofParts (i < 0) i.natAbs places).value = i / 10 ^ places := by
  rw [value_ofParts]
  exact (value_eq_signed ⟨i, places⟩).symm

/-- A sum that fits is exact. -/
theorem exists_add? {a b : Decimal} {k : Nat} (ha : a.places ≤ k) (hb : b.places ≤ k)
    (room : |a.value + b.value| * 10 ^ k < capacity) :
    ∃ c, add? a b = some c ∧ c.value = a.value + b.value ∧ c.places ≤ k := by
  rw [add?]
  split
  · next h => exact ⟨b, rfl, by simp [value, h], hb⟩
  split
  · next h => exact ⟨a, rfl, by simp [value, h], ha⟩
  · set places := max a.places b.places
    set total : ℤ := a.coefficient * 10 ^ (places - a.places) +
      b.coefficient * 10 ^ (places - b.places) with htotal
    have exact_total : (total : ℚ) = (a.value + b.value) * 10 ^ places := by
      rw [htotal, Int.cast_add, value_scaled a (le_max_left _ _), value_scaled b (le_max_right _ _),
        add_mul]
    have fits : total.natAbs < capacity := by
      have size : (total.natAbs : ℚ) ≤ |a.value + b.value| * 10 ^ k := by
        have unit : (0 : ℚ) < 10 ^ places := by positivity
        have : places ≤ k := max_le ha hb
        rw [Nat.cast_natAbs, Int.cast_abs, exact_total, abs_mul, abs_of_pos unit]
        gcongr
        norm_num
      exact_mod_cast size.trans_lt room
    refine ⟨_, fit?_of_lt (total < 0) places fits, ?_, ?_⟩
    · rw [value_ofParts_int, exact_total, mul_div_cancel_right₀ _ (by positivity)]
    · exact max_le ha hb

/-- Sums of decimals of at most `k` places are exact while their sizes add up to little enough. -/
theorem exists_foldlM_add? {ds : List Decimal} {start : Decimal} {k : Nat}
    (hstart : start.places ≤ k) (hds : ∀ d ∈ ds, d.places ≤ k)
    (room : (|start.value| + (ds.map fun d => |d.value|).sum) * 10 ^ k < capacity) :
    ∃ total, ds.foldlM add? start = some total ∧
      total.value = start.value + (ds.map value).sum ∧ total.places ≤ k := by
  induction ds generalizing start with
  | nil => exact ⟨start, rfl, by simp, hstart⟩
  | cons d ds ih =>
    rw [List.forall_mem_cons] at hds
    rw [List.map_cons, List.sum_cons, ← add_assoc] at room
    have others : 0 ≤ (ds.map fun d => |d.value|).sum :=
      List.sum_nonneg (by simp)
    have size := abs_add_le start.value d.value
    obtain ⟨next, hnext, exact_next, places⟩ := exists_add? hstart hds.1 <| room.trans_le' <| by
      gcongr
      linarith
    obtain ⟨total, htotal, exact_total, hplaces⟩ := ih places hds.2 <| room.trans_le' <| by
      rw [exact_next]
      gcongr
    refine ⟨total, ?_, ?_, hplaces⟩
    · rw [List.foldlM_cons, hnext]
      exact htotal
    · rw [exact_total, exact_next, List.map_cons, List.sum_cons, add_assoc]

/-! ### Quotients -/

/-- `x` is a multiple of 10^-`places` nearest to `y`. -/
structure NearestAt (places : Nat) (x y : ℚ) : Prop where
  grid : ∃ i : ℤ, x * 10 ^ places = i
  near : 2 * |x - y| * 10 ^ places ≤ 1

/-- `x` is `y` or `y` rounded at the last place that a decimal has room for. -/
inductive Approximates (x y : ℚ) : Prop where
  | exact (h : x = y)
  | rounded (places : Nat) (nearest : NearestAt places x y)
    (last : places = maxPlaces ∨ (capacity : ℚ) ≤ y * 10 ^ (places + 1) + 1 / 2)

section Division

variable {magnitude places n : Nat}

theorem quotient_scaled (magnitude places n extra : Nat) :
    (magnitude : ℚ) / 10 ^ places / n * 10 ^ (places + extra) = magnitude * 10 ^ extra / n := by
  rw [pow_add]
  field_simp

theorem nearestAt_roundDiv (extra : Nat) (hn : 0 < n) : NearestAt (places + extra)
    ((roundDiv .even (magnitude * 10 ^ extra) n : Nat) / 10 ^ (places + extra))
    (magnitude / 10 ^ places / n) := by
  have unit : (0 : ℚ) < 10 ^ (places + extra) := by positivity
  refine ⟨⟨roundDiv .even (magnitude * 10 ^ extra) n, ?_⟩, ?_⟩
  · rw [div_mul_cancel₀ _ unit.ne']
    rfl
  · have half := abs_roundDiv_sub_le .even (magnitude * 10 ^ extra) hn
    rw [mul_assoc, ← abs_of_pos unit, ← abs_mul, abs_of_pos unit, sub_mul,
      div_mul_cancel₀ _ unit.ne', quotient_scaled]
    push_cast at half
    linarith

theorem exact_quotient (places extra : Nat) (hn : 0 < n) (h : magnitude * 10 ^ extra % n = 0) :
    ((roundDiv .even (magnitude * 10 ^ extra) n : Nat) : ℚ) / 10 ^ (places + extra) =
      magnitude / 10 ^ places / n := by
  have hpos : (n : ℚ) ≠ 0 := by exact_mod_cast hn.ne'
  have dvd := Nat.dvd_of_mod_eq_zero h
  rw [roundDiv_of_dvd .even hn dvd, Nat.cast_div dvd hpos, div_eq_iff (by positivity),
    quotient_scaled]
  push_cast
  rfl

/-- The last of the first numbers with a property that zero has. -/
theorem exists_find?_reverse_range {p : Nat → Bool} (start : p 0 = true) (bound : Nat) :
    ∃ most ≤ bound, (List.range (bound + 1)).reverse.find? p = some most ∧
      (most = bound ∨ p (most + 1) = false) := by
  induction bound with
  | zero => exact ⟨0, Nat.le_refl 0, by simp [List.range_succ, start], .inl rfl⟩
  | succ bound ih =>
    rw [List.range_succ, List.reverse_concat, List.find?_cons]
    cases h : p (bound + 1) with
    | true => exact ⟨bound + 1, Nat.le_refl _, rfl, .inl rfl⟩
    | false =>
      obtain ⟨most, hmost, found, last⟩ := ih
      refine ⟨most, Nat.le_succ_of_le hmost, found, .inr ?_⟩
      rcases last with rfl | last
      · exact h
      · exact last

/-- A quotient is there and has the sign of the number that is divided. -/
theorem exists_divNat? {d : Decimal} (hd : d.Fits) (hn : 0 < n) :
    ∃ quotient x, d.divNat? n = some quotient ∧ 0 ≤ x ∧
      quotient.value = signed (d.coefficient < 0) x ∧
      Approximates x (d.coefficient.natAbs / 10 ^ d.places / n) := by
  obtain ⟨room, places⟩ := hd
  simp only [divNat?]
  split
  · next h => exact ⟨zero, 0, rfl, le_rfl, by simp [signed], .exact (by simp [h])⟩
  split
  · next h =>
    refine ⟨_, _, rfl, ?_, value_ofParts _ _ _, .exact ?_⟩
    · positivity
    · have exact_cents := exact_quotient d.places 0 hn (by simpa using h)
      rw [roundDiv_of_dvd .even hn (by simpa using Nat.dvd_of_mod_eq_zero h)] at exact_cents
      simpa using exact_cents
  · set fits : Nat → Bool := fun extra =>
      roundDiv .even (d.coefficient.natAbs * 10 ^ extra) n < capacity with hfits
    have start : fits 0 = true := by
      rw [hfits, decide_eq_true_eq, Nat.pow_zero, Nat.mul_one]
      exact Nat.lt_of_le_of_lt (roundDiv_le_self .even hn) room
    obtain ⟨most, hmost, found, last⟩ := exists_find?_reverse_range start (maxPlaces - d.places)
    rw [found]
    refine ⟨_, _, rfl, ?_, value_ofParts _ _ _, ?_⟩
    · positivity
    rw [tidy_div]
    cases hexact : [9, 18, 27].find? fun extra =>
        decide (extra ≤ most ∧ d.coefficient.natAbs * 10 ^ extra % n = 0) with
    | some extra =>
      have dvd := List.find?_some hexact
      rw [decide_eq_true_eq] at dvd
      exact .exact (exact_quotient _ extra hn dvd.2)
    | none =>
      refine .rounded _ (nearestAt_roundDiv most hn) ?_
      rcases last with rfl | last
      · exact .inl (Nat.add_sub_cancel' places)
      · right
        rw [hfits, decide_eq_false_iff_not, Nat.not_lt] at last
        have half := abs_roundDiv_sub_le .even (d.coefficient.natAbs * 10 ^ (most + 1)) hn
        have large : (capacity : ℚ) ≤
            roundDiv .even (d.coefficient.natAbs * 10 ^ (most + 1)) n := by
          exact_mod_cast last
        rw [Nat.add_assoc, quotient_scaled]
        have above := (abs_le.1 half).2
        push_cast at above
        linarith

end Division

/-! ### Rounding twice -/

/-- Two numbers on grids through a point lie on the same side of it if they are nearer to each other
than the grids allow otherwise. -/
theorem le_iff_le_of_grids {x y point fine coarse : ℚ} (hfine : 0 < fine) (hcoarse : 0 < coarse)
    (hx : ∃ i : ℤ, (x - point) * fine = i) (hy : ∃ i : ℤ, (y - point) * coarse = i)
    (near : 2 * |x - y| * fine ≤ 1) (h : coarse < 2 * fine) : point ≤ x ↔ point ≤ y := by
  -- A negative multiple of a grid's unit is at most minus one unit.
  have gap : ∀ {z grid : ℚ}, 0 < grid → (∃ i : ℤ, (z - point) * grid = i) → z < point →
      1 ≤ (point - z) * grid := by
    rintro z grid hgrid ⟨i, hi⟩ below
    have negative : (i : ℚ) < 0 := by
      rw [← hi]
      exact mul_neg_of_neg_of_pos (sub_neg.2 below) hgrid
    have : (i : ℚ) ≤ -1 := by
      have : i ≤ -1 := by
        have : i < 0 := by exact_mod_cast negative
        omega
      exact_mod_cast this
    linarith
  constructor
  · intro above
    by_contra! below
    have far := gap hcoarse hy below
    have apart : point - y ≤ |x - y| := (sub_le_sub_right above y).trans (le_abs_self _)
    have : (point - y) * coarse < 2 * |x - y| * fine :=
      calc (point - y) * coarse
        _ < (point - y) * (2 * fine) := by
          have := sub_pos.2 below
          gcongr
        _ = 2 * (point - y) * fine := by ring
        _ ≤ 2 * |x - y| * fine := by gcongr
    linarith
  · intro above
    by_contra! below
    have far := gap hfine hx below
    have apart : point - x ≤ |x - y| := by
      rw [abs_sub_comm]
      exact (sub_le_sub_right above x).trans (le_abs_self _)
    have : (point - x) * fine ≤ |x - y| * fine := by gcongr
    linarith

/-- Midpoints of cents have three places. -/
theorem exists_midpoint_eq (i : ℤ) {places : Nat} (h : 3 ≤ places) :
    ∃ j : ℤ, ((i : ℚ) - 1 / 2) / 100 * 10 ^ places = j := by
  refine ⟨(10 * i - 5) * 10 ^ (places - 3), ?_⟩
  rw [← Nat.sub_add_cancel h, pow_add, Nat.add_sub_cancel]
  push_cast
  ring

/-- Rounding the quotient of numbers of few digits before it is rounded to cents is harmless. -/
theorem Approximates.roundCents_eq {x y : ℚ} (h : Approximates x y) (hx : 0 ≤ x) (hy : 0 ≤ y)
    {n k m : Nat} (hn : 0 < n) (hk : 3 ≤ k) (grid : ∃ i : ℤ, y * (n * 10 ^ k) = i)
    (size : y < 10 ^ m) (room : n * 10 ^ (k + m) ≤ 10 ^ 28) : roundCents x = roundCents y := by
  cases h with
  | exact h => rw [h]
  | rounded places nearest last =>
    have digits : 28 ≤ places + m := by
      rcases last with rfl | last
      · exact Nat.le_add_right 28 m
      · have bound : (capacity : ℚ) < 10 ^ (places + 1 + m) + 1 / 2 :=
          calc (capacity : ℚ)
            _ ≤ y * 10 ^ (places + 1) + 1 / 2 := last
            _ < 10 ^ m * 10 ^ (places + 1) + 1 / 2 := by gcongr
            _ = 10 ^ (places + 1 + m) + 1 / 2 := by rw [pow_add _ _ m, mul_comm]
        have less : (10 : ℚ) ^ 28 < 10 ^ (places + 1 + m) := by
          have : (10 : ℚ) ^ 28 + 1 ≤ capacity := by norm_num [capacity]
          linarith
        have := (pow_lt_pow_iff_right₀ (by norm_num)).1 less
        omega
    have few : k + m ≤ 28 := by
      have : 10 ^ (k + m) ≤ 10 ^ 28 := (Nat.le_mul_of_pos_left _ hn).trans room
      exact (Nat.pow_le_pow_iff_right (by decide)).1 this
    have fine : (n : ℚ) * 10 ^ k ≤ 10 ^ places := by
      have : n * 10 ^ k * 10 ^ m ≤ 10 ^ places * 10 ^ m := by
        rw [Nat.mul_assoc, ← Nat.pow_add, ← Nat.pow_add]
        exact room.trans (Nat.pow_le_pow_right (by decide) digits)
      exact_mod_cast Nat.le_of_mul_le_mul_right this (Nat.pow_pos (by decide))
    have hnq : (0 : ℚ) < n := by exact_mod_cast hn
    refine roundCents_congr hx hy fun i => ?_
    obtain ⟨j, hj⟩ := exists_midpoint_eq i (show 3 ≤ places by omega)
    obtain ⟨l, hl⟩ := exists_midpoint_eq i hk
    obtain ⟨a, ha⟩ := nearest.grid
    obtain ⟨b, hb⟩ := grid
    rw [← div_le_iff₀' (by norm_num), ← div_le_iff₀' (by norm_num)]
    have unit : (0 : ℚ) < 10 ^ places := by positivity
    have part : (0 : ℚ) < n * 10 ^ k := by positivity
    refine le_iff_le_of_grids unit part ⟨a - j, ?_⟩ ⟨b - n * l, ?_⟩ nearest.near (by linarith)
    · rw [sub_mul, ha, hj]
      push_cast
      rfl
    · rw [sub_mul, hb, mul_left_comm, hl]
      push_cast
      rfl

/-! ### Means -/

section Means

variable {ds : List Decimal} {k m : Nat}

theorem sum_abs_value_lt (filled : ds ≠ []) (size : ∀ d ∈ ds, |d.value| < 10 ^ m) :
    (ds.map fun d => |d.value|).sum < ds.length * 10 ^ m := by
  have less := List.sum_lt_sum_of_ne_nil filled (fun d => |d.value|) (fun _ => (10 : ℚ) ^ m) size
  rwa [List.map_const', List.sum_replicate, nsmul_eq_mul] at less

theorem abs_sum_value_le (ds : List Decimal) :
    |(ds.map value).sum| ≤ (ds.map fun d => |d.value|).sum := by
  induction ds with
  | nil => simp
  | cons d ds ih =>
    rw [List.map_cons, List.map_cons, List.sum_cons, List.sum_cons]
    exact (abs_add_le _ _).trans (add_le_add_right ih _)

theorem natAbs_coefficient (d : Decimal) :
    (d.coefficient.natAbs : ℚ) = |d.value| * 10 ^ d.places := by
  have unit : (0 : ℚ) < 10 ^ d.places := by positivity
  rw [value, abs_div, abs_of_pos unit, div_mul_cancel₀ _ unit.ne', Nat.cast_natAbs, Int.cast_abs]

/-- The total of decimals of few digits is there and exact. -/
theorem exists_sum? (filled : ds ≠ []) (places : ∀ d ∈ ds, d.places ≤ k)
    (size : ∀ d ∈ ds, |d.value| < 10 ^ m) (room : ds.length * 10 ^ (k + m) ≤ 10 ^ 28) :
    ∃ total, sum? ds = some total ∧ total.value = (ds.map value).sum ∧ total.places ≤ k ∧
      total.Fits := by
  have less := sum_abs_value_lt filled size
  have fits : (ds.map fun d => |d.value|).sum * 10 ^ k < capacity :=
    calc (ds.map fun d => |d.value|).sum * 10 ^ k
      _ < ds.length * 10 ^ m * 10 ^ k := by gcongr
      _ = (ds.length * 10 ^ (k + m) : Nat) := by push_cast; ring
      _ ≤ (10 ^ 28 : Nat) := by exact_mod_cast room
      _ < capacity := by norm_num [capacity]
  obtain ⟨total, htotal, exact_total, hplaces⟩ :=
    exists_foldlM_add? (show zero.places ≤ k from Nat.zero_le k) places (by simpa using fits)
  rw [value_zero, zero_add] at exact_total
  refine ⟨total, htotal, exact_total, hplaces, ?_, ?_⟩
  · have size : (total.coefficient.natAbs : ℚ) < capacity :=
      calc (total.coefficient.natAbs : ℚ)
        _ = |total.value| * 10 ^ total.places := natAbs_coefficient total
        _ ≤ (ds.map fun d => |d.value|).sum * 10 ^ k := by
          have sizes := abs_sum_value_le ds
          have nonneg := (abs_nonneg _).trans sizes
          rw [exact_total]
          gcongr
          norm_num
        _ < capacity := fits
    exact_mod_cast size
  · have few : 10 ^ (k + m) ≤ 10 ^ 28 :=
      (Nat.le_mul_of_pos_left _ (List.length_pos_iff.2 filled)).trans room
    have := (Nat.pow_le_pow_iff_right (by decide)).1 few
    exact hplaces.trans (show k ≤ 28 by omega)

/-- The mean of decimals of few digits is the exact mean rounded to cents. -/
theorem exists_mean? (filled : ds ≠ []) (hk : 3 ≤ k) (places : ∀ d ∈ ds, d.places ≤ k)
    (size : ∀ d ∈ ds, |d.value| < 10 ^ m) (room : ds.length * 10 ^ (k + m) ≤ 10 ^ 28) :
    ∃ mean, mean? ds = some mean ∧ mean.value = roundCents ((ds.map value).sum / ds.length) := by
  obtain ⟨total, htotal, exact_total, hplaces, fits⟩ := exists_sum? filled places size room
  have count : 0 < ds.length := List.length_pos_iff.2 filled
  have hcount : (0 : ℚ) < ds.length := by exact_mod_cast count
  obtain ⟨quotient, x, hquotient, hx, sign, approximates⟩ := exists_divNat? fits count
  refine ⟨quotient.toCents, ?_, ?_⟩
  · rw [mean?, if_neg (by simpa using filled), htotal, Option.bind_eq_bind, Option.bind_some,
      hquotient]
    rfl
  have exact_value : (total.coefficient.natAbs : ℚ) / 10 ^ total.places = |total.value| := by
    rw [natAbs_coefficient, mul_div_cancel_right₀ _ (by positivity)]
  have grid : ∃ i : ℤ, (total.coefficient.natAbs : ℚ) / 10 ^ total.places / ds.length *
      (ds.length * 10 ^ k) = i := by
    refine ⟨total.coefficient.natAbs * 10 ^ (k - total.places), ?_⟩
    have unit : (10 : ℚ) ^ k = 10 ^ (k - total.places) * 10 ^ total.places := by
      rw [← pow_add, Nat.sub_add_cancel hplaces]
    rw [unit, Int.cast_mul, Int.cast_natCast, Int.cast_pow, Int.cast_ofNat]
    field_simp
  have small : (total.coefficient.natAbs : ℚ) / 10 ^ total.places / ds.length < 10 ^ m := by
    rw [exact_value, exact_total, div_lt_iff₀' hcount]
    exact (abs_sum_value_le ds).trans_lt (sum_abs_value_lt filled size)
  have rounded := approximates.roundCents_eq hx (by positivity) count hk grid small room
  have scaled : total.value / ds.length = signed (total.coefficient < 0)
      (total.coefficient.natAbs / 10 ^ total.places / ds.length) := by
    rw [value_eq_signed, signed, signed]
    split
    · rw [neg_div]
    · rfl
  rw [value_toCents, sign, roundCents_signed, rounded, ← roundCents_signed, ← scaled, exact_total]

end Means

/-! ### Decimals of doubles -/

theorem stripZeros_normal (coefficient places : Nat) :
    (stripZeros coefficient places).2 = 0 ∨ (stripZeros coefficient places).1 % 10 ≠ 0 := by
  induction places generalizing coefficient with
  | zero => exact .inl rfl
  | succ places ih =>
    rw [stripZeros]
    split
    · exact ih _
    · next kept => exact .inr kept

/-- The decimal of a double has no zero at the end of its fraction. -/
theorem ofDouble?_normal {x : Float} {d : Decimal} (h : ofDouble? x = some d) :
    d.places = 0 ∨ d.coefficient.natAbs % 10 ≠ 0 := by
  rw [ofDouble?] at h
  split at h
  · simp only at h
    split at h
    · cases h
      exact .inl rfl
    · contradiction
  · next negative significand shift hx =>
    split at h
    · cases h
      exact .inl rfl
    · cases h
      generalize limitDigits _ _ = digits
      obtain h | h := stripZeros_normal digits.1 digits.2
      · exact .inl h
      · right
        cases negative <;> simpa [ofParts] using h
  · contradiction

/-- The decimal of a double has no more places than its value needs. -/
theorem places_le_of_ofDouble? {x : Float} {d : Decimal} (h : ofDouble? x = some d) {k : Nat}
    (digits : ∃ i : ℤ, d.value * 10 ^ k = i) : d.places ≤ k := by
  obtain ⟨i, hi⟩ := digits
  by_contra! more
  have unit : (10 : ℚ) ^ d.places = 10 ^ k * 10 ^ (d.places - k) := by
    rw [← pow_add, Nat.add_sub_cancel' more.le]
  have split : d.coefficient = i * 10 ^ (d.places - k) := by
    have : (d.coefficient : ℚ) = i * 10 ^ (d.places - k) := by
      rw [← hi, value, unit]
      field_simp
    exact_mod_cast this
  have tens : 10 ∣ d.coefficient.natAbs := by
    rw [← Int.natCast_dvd_natCast, Int.dvd_natAbs, split]
    exact Dvd.dvd.mul_left (dvd_pow_self 10 (by omega)) i
  rcases ofDouble?_normal h with whole | normal
  · omega
  · exact normal (Nat.mod_eq_zero_of_dvd tens)

end Decimal

/-- The decimal whose double is the mean. -/
def meanInCents? (xs : List Float) : Option Decimal :=
  (xs.mapM Decimal.ofDouble?).bind Decimal.mean?

theorem decimalMean?_eq_map (xs : List Float) :
    decimalMean? xs = (meanInCents? xs).map Decimal.toDouble := by
  rw [decimalMean?, meanInCents?]
  cases xs.mapM Decimal.ofDouble? with
  | none => rfl
  | some ds => cases h : Decimal.mean? ds <;> simp [h]

theorem exists_perm_of_mapM {xs ys : List Float} {ds : List Decimal}
    (h : xs.mapM Decimal.ofDouble? = some ds) (hys : ys.Perm xs) :
    ∃ es, ys.mapM Decimal.ofDouble? = some es ∧ es.Perm ds := by
  obtain ⟨es, converted, perm⟩ := List.perm_comp_forall₂ hys (mapM_eq_some_iff.1 h)
  exact ⟨es, mapM_eq_some_iff.2 converted, perm⟩

/-- Decimals of at most `k` places below 10^`m`, few enough for their total to fit. -/
structure Decimal.Narrow (k m : Nat) (ds : List Decimal) : Prop where
  digits : ∀ d ∈ ds, ∃ i : ℤ, d.value * 10 ^ k = i
  size : ∀ d ∈ ds, |d.value| < 10 ^ m
  room : ds.length * 10 ^ (k + m) ≤ 10 ^ 28

theorem exists_meanInCents? {xs : List Float} {ds : List Decimal} {k m : Nat}
    (converted : xs.mapM Decimal.ofDouble? = some ds) (filled : ds ≠ []) (hk : 3 ≤ k)
    (narrow : Decimal.Narrow k m ds) : ∃ mean, meanInCents? xs = some mean ∧
      decimalMean? xs = some mean.toDouble ∧
      mean.value = roundCents ((ds.map Decimal.value).sum / ds.length) := by
  have places : ∀ d ∈ ds, d.places ≤ k := by
    intro d hd
    obtain ⟨x, -, hx⟩ := exists_of_mem_mapM converted hd
    exact Decimal.places_le_of_ofDouble? hx (narrow.digits d hd)
  obtain ⟨mean, hmean, value⟩ := Decimal.exists_mean? filled hk places narrow.size narrow.room
  have cents : meanInCents? xs = some mean := by
    rw [meanInCents?, converted]
    exact hmean
  exact ⟨mean, cents, by rw [decimalMean?_eq_map, cents, Option.map_some], value⟩

theorem Decimal.Narrow.of_perm {k m : Nat} {ds es : List Decimal} (h : Narrow k m ds)
    (perm : es.Perm ds) : Narrow k m es where
  digits d hd := h.digits d (perm.subset hd)
  size d hd := h.size d (perm.subset hd)
  room := perm.length_eq ▸ h.room

end CampusQuery
