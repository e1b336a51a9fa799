import CampusQuery.Query.Group
import CampusQuery.Proofs.Number.Double

/-!
Largest and smallest numbers. Main statement: the number that is left is at an end of the numbers
and is one of them.
-/

namespace CampusQuery

/-- A choice of one of two numbers, never the one that lies further back. -/
structure PicksBy (place : Float → Int) (pick : Float → Float → Float) : Prop where
  one : ∀ a b, a.isNaN = false → b.isNaN = false → pick a b = a ∨ pick a b = b
  left : ∀ a b, a.isNaN = false → b.isNaN = false → place a ≤ place (pick a b)
  right : ∀ a b, a.isNaN = false → b.isNaN = false → place b ≤ place (pick a b)

theorem largerNumber_eq {a b : Float} (ha : a.isNaN = false) (hb : b.isNaN = false) :
    largerNumber a b = if rankOf a < rankOf b then b else a := by
  simp only [largerNumber, ha, hb, Bool.false_eq_true, if_false, lt_iff_rankOf ha hb]

theorem smallerNumber_eq {a b : Float} (ha : a.isNaN = false) (hb : b.isNaN = false) :
    smallerNumber a b = if rankOf b < rankOf a then b else a := by
  simp only [smallerNumber, ha, hb, Bool.false_eq_true, if_false, lt_iff_rankOf hb ha]

theorem picksBy_larger : PicksBy rankOf largerNumber where
  one a b ha hb := by
    rw [largerNumber_eq ha hb]
    split <;> simp
  left a b ha hb := by
    rw [largerNumber_eq ha hb]
    split <;> omega
  right a b ha hb := by
    rw [largerNumber_eq ha hb]
    split <;> omega

theorem picksBy_smaller : PicksBy (fun x => -rankOf x) smallerNumber where
  one a b ha hb := by
    rw [smallerNumber_eq ha hb]
    split <;> simp
  left a b ha hb := by
    rw [smallerNumber_eq ha hb]
    split <;> omega
  right a b ha hb := by
    rw [smallerNumber_eq ha hb]
    split <;> omega

section

variable {place : Float → Int} {pick : Float → Float → Float} {start : Float} {xs : List Float}

/-- What is left of a run over the numbers. -/
theorem PicksBy.foldl (hpick : PicksBy place pick) (hstart : start.isNaN = false)
    (hxs : ∀ x ∈ xs, x.isNaN = false) :
    (xs.foldl pick start).isNaN = false ∧
      (xs.foldl pick start = start ∨ xs.foldl pick start ∈ xs) ∧
      place start ≤ place (xs.foldl pick start) ∧
      ∀ x ∈ xs, place x ≤ place (xs.foldl pick start) := by
  induction xs generalizing start with
  | nil => simpa using hstart
  | cons x xs ih =>
    have hx := hxs x List.mem_cons_self
    have hnext : (pick start x).isNaN = false := by
      rcases hpick.one start x hstart hx with h | h <;> rw [h] <;> assumption
    obtain ⟨hresult, member, first, others⟩ :=
      ih hnext fun y hy => hxs y (List.mem_cons_of_mem x hy)
    have hleft := hpick.left start x hstart hx
    have hright := hpick.right start x hstart hx
    rw [List.foldl_cons]
    refine ⟨hresult, ?_, by omega, fun y hy => ?_⟩
    · rcases member with member | member
      · rcases hpick.one start x hstart hx with h | h
        · exact .inl (member.trans h)
        · exact .inr (by rw [member, h]; exact List.mem_cons_self)
      · exact .inr (List.mem_cons_of_mem x member)
    · rcases List.mem_cons.1 hy with rfl | hy
      · omega
      · exact others y hy

/-- More numbers do not leave one that lies further back. -/
theorem PicksBy.place_foldl_le (hpick : PicksBy place pick) (hstart : start.isNaN = false)
    {ys : List Float} (hys : ∀ y ∈ ys, y.isNaN = false) (h : xs ⊆ ys) :
    place (xs.foldl pick start) ≤ place (ys.foldl pick start) := by
  obtain ⟨-, member, -, -⟩ := hpick.foldl hstart fun x hx => hys x (h hx)
  obtain ⟨-, -, first, others⟩ := hpick.foldl hstart hys
  rcases member with member | member
  · rw [member]
    exact first
  · exact others _ (h member)

theorem PicksBy.place_foldl_perm (hpick : PicksBy place pick) (hstart : start.isNaN = false)
    {ys : List Float} (hxs : ∀ x ∈ xs, x.isNaN = false) (h : xs.Perm ys) :
    place (xs.foldl pick start) = place (ys.foldl pick start) := by
  have hys : ∀ y ∈ ys, y.isNaN = false := fun y hy => hxs y (h.mem_iff.2 hy)
  exact Int.le_antisymm (hpick.place_foldl_le hstart hys h.subset)
    (hpick.place_foldl_le hstart hxs h.symm.subset)

/-- A run that starts at the far end leaves one of the numbers. -/
theorem PicksBy.exists_beq (hpick : PicksBy place pick) (hstart : start.isNaN = false)
    (hxs : ∀ x ∈ xs, x.isNaN = false) (filled : xs ≠ [])
    (far : ∀ x, x.isNaN = false → place x ≤ place start → rankOf x = rankOf start) :
    ∃ x ∈ xs, (x == xs.foldl pick start) = true := by
  obtain ⟨hresult, member, -, others⟩ := hpick.foldl hstart hxs
  rcases member with member | member
  · obtain ⟨x, hx⟩ := List.exists_mem_of_ne_nil xs filled
    have hle := others x hx
    rw [member] at hle ⊢
    exact ⟨x, hx, (beq_iff_rankOf (hxs x hx) hstart).2 (far x (hxs x hx) hle)⟩
  · exact ⟨_, member, (beq_iff_rankOf hresult hresult).2 rfl⟩

end

variable {xs : List Float}

theorem isNaN_infinity : infinity.isNaN = false := by decide

theorem isNaN_neg_infinity : (-infinity).isNaN = false := by decide

theorem rankOf_infinity : rankOf infinity = 2047 * 2 ^ 52 := by decide

theorem rankOf_neg_infinity : rankOf (-infinity) = -(2047 * 2 ^ 52) := by decide

/-- A number is finite, or it is at an end of the numbers. -/
theorem finite_or_infinite {x : Float} (h : x.isNaN = false) :
    IsFinite x ∨ x = infinity ∨ x = -infinity := by
  rcases Nat.lt_or_eq_of_le (isNaN_eq_false_iff.1 h) with finite | infinite
  · exact .inl finite
  right
  have plus : signBit infinity = false ∧ magnitudeBits infinity = 2047 * 2 ^ 52 := by decide
  have minus : signBit (-infinity) = true ∧ magnitudeBits (-infinity) = 2047 * 2 ^ 52 := by decide
  cases hsign : signBit x with
  | false => exact .inl (eq_of_bits_eq (hsign.trans plus.1.symm) (infinite.trans plus.2.symm))
  | true => exact .inr (eq_of_bits_eq (hsign.trans minus.1.symm) (infinite.trans minus.2.symm))

theorem isFinite_of_beq {x y : Float} (h : (x == y) = true) (hx : IsFinite x) : IsFinite y := by
  rcases (beq_iff.1 h).2 with rfl | ⟨-, hy⟩
  · exact hx
  · rw [IsFinite, hy]
    decide

theorem foldl_larger (hxs : ∀ x ∈ xs, x.isNaN = false) (filled : xs ≠ []) :
    (∀ x ∈ xs, x ≤ xs.foldl largerNumber (-infinity)) ∧
      ∃ x ∈ xs, (x == xs.foldl largerNumber (-infinity)) = true := by
  obtain ⟨hresult, -, -, others⟩ := picksBy_larger.foldl isNaN_neg_infinity hxs
  refine ⟨fun x hx => (le_iff_rankOf (hxs x hx) hresult).2 (others x hx), ?_⟩
  apply picksBy_larger.exists_beq isNaN_neg_infinity hxs filled
  intro x hx hle
  have := rankOf_bounds hx
  rw [rankOf_neg_infinity] at hle ⊢
  omega

theorem foldl_smaller (hxs : ∀ x ∈ xs, x.isNaN = false) (filled : xs ≠ []) :
    (∀ x ∈ xs, xs.foldl smallerNumber infinity ≤ x) ∧
      ∃ x ∈ xs, (x == xs.foldl smallerNumber infinity) = true := by
  obtain ⟨hresult, -, -, others⟩ := picksBy_smaller.foldl isNaN_infinity hxs
  refine ⟨fun x hx => (le_iff_rankOf hresult (hxs x hx)).2 (by have := others x hx; omega), ?_⟩
  apply picksBy_smaller.exists_beq isNaN_infinity hxs filled
  intro x hx hle
  have := rankOf_bounds hx
  rw [rankOf_infinity] at hle ⊢
  omega

end CampusQuery
