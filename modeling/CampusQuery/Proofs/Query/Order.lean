import Mathlib.Data.String.Basic
import CampusQuery.Query.Result
import CampusQuery.Proofs.Data.Value

/-!
The order of values and of rows. Main statements: where no number is NaN the comparison of values is
total and transitive and ties exactly the equal ones, and rows compare in the first key on which
they differ.
-/

namespace CampusQuery

theorem compareNumbers_eq_rankOf {a b : Float} (ha : a.isNaN = false) (hb : b.isNaN = false) :
    compareNumbers a b = Ord.compare (rankOf a) (rankOf b) := by
  rw [compareNumbers]
  simp only [lt_iff_rankOf ha hb, lt_iff_rankOf hb ha]
  rcases Int.lt_trichotomy (rankOf a) (rankOf b) with hlt | heq | hgt
  · rw [if_pos hlt, Int.compare_eq_lt.2 hlt]
  · rw [if_neg (by omega), if_neg (by omega), Int.compare_eq_eq.2 heq]
  · rw [if_neg (by omega), if_pos hgt, Int.compare_eq_gt.2 hgt]

namespace FieldValue

/-- Numbers by their size, texts by their characters, and numbers before texts. -/
def Below : FieldValue → FieldValue → Prop
  | .number a, .number b => a < b
  | .text a, .text b => a < b
  | .number _, .text _ => True
  | .text _, .number _ => False

theorem compare_eq_lt_iff {a b : FieldValue} : a.compare b = .lt ↔ a.Below b := by
  cases a <;> cases b
  case number.number a b =>
    simp only [compare, compareNumbers, Below]
    split
    · simpa
    · split <;> simpa
  case text.text a b => exact compare_lt_iff_lt
  all_goals simp [compare, Below]

theorem compare_eq_eq_iff {a b : FieldValue} (ha : a.IsOrdered) (hb : b.IsOrdered) :
    a.compare b = .eq ↔ (a == b) = true := by
  cases a <;> cases b
  case number.number a b =>
    change compareNumbers a b = .eq ↔ (a == b) = true
    rw [compareNumbers_eq_rankOf ha hb, Int.compare_eq_eq, beq_iff_rankOf ha hb]
  case text.text a b =>
    change Ord.compare a b = .eq ↔ (a == b) = true
    rw [compare_eq_iff_eq, beq_iff_eq]
  all_goals simp [compare, BEq.beq, beq]

theorem compare_swap {a b : FieldValue} (ha : a.IsOrdered) (hb : b.IsOrdered) :
    a.compare b = (b.compare a).swap := by
  cases a <;> cases b
  case number.number a b =>
    change compareNumbers a b = (compareNumbers b a).swap
    rw [compareNumbers_eq_rankOf ha hb, compareNumbers_eq_rankOf hb ha]
    exact Std.OrientedCmp.eq_swap
  case text.text a b =>
    change Ord.compare a b = (Ord.compare b a).swap
    exact Std.OrientedCmp.eq_swap
  all_goals rfl

theorem compare_isLE_trans {a b c : FieldValue} (ha : a.IsOrdered) (hb : b.IsOrdered)
    (hc : c.IsOrdered) (hab : (a.compare b).isLE) (hbc : (b.compare c).isLE) :
    (a.compare c).isLE := by
  cases a <;> cases b <;> cases c <;> first | contradiction | rfl | skip
  case number.number.number a b c =>
    change (compareNumbers a b).isLE at hab
    change (compareNumbers b c).isLE at hbc
    change (compareNumbers a c).isLE
    rw [compareNumbers_eq_rankOf ha hb] at hab
    rw [compareNumbers_eq_rankOf hb hc] at hbc
    rw [compareNumbers_eq_rankOf ha hc]
    exact Std.TransOrd.isLE_trans hab hbc
  case text.text.text a b c => exact Std.TransOrd.isLE_trans hab hbc

end FieldValue

section Rows

variable {α : Type u}

theorem transCmp_compareCells {cell : α → Option FieldValue}
    (h : ∀ a value, cell a = some value → value.IsOrdered) :
    Std.TransCmp fun a b => compareCells (cell a) (cell b) where
  eq_swap {a b} := by
    cases ha : cell a <;> cases hb : cell b
    case some.some x y => exact FieldValue.compare_swap (h a x ha) (h b y hb)
    all_goals rfl
  isLE_trans {a b c} hab hbc := by
    cases ha : cell a <;> cases hb : cell b <;> cases hc : cell c <;> rw [ha, hb] at hab <;>
      rw [hb, hc] at hbc <;> first | contradiction | rfl | skip
    case some.some.some x y z =>
      exact FieldValue.compare_isLE_trans (h a x ha) (h b y hb) (h c z hc) hab hbc

/-- The induction is on the keys, of which the first that tells rows apart decides. -/
theorem transCmp_compareBy {row : α → Row}
    (h : ∀ a key value, (row a).get? key = some value → value.IsOrdered) (keys : List String) :
    Std.TransCmp fun a b => (row a).compareBy keys (row b) := by
  induction keys with
  | nil =>
    simp only [Row.compareBy]
    exact { eq_swap := rfl, isLE_trans := fun _ _ => rfl }
  | cons key keys ih =>
    have cells := transCmp_compareCells fun a => h a key
    exact inferInstanceAs (Std.TransCmp (compareLex
      (fun a b => compareCells ((row a).get? key) ((row b).get? key))
      (fun a b => (row a).compareBy keys (row b))))

theorem transCmp_compareRows {row : α → Row}
    (h : ∀ a key value, (row a).get? key = some value → value.IsOrdered) (spec : SortSpec) :
    Std.TransCmp fun a b => spec.compareRows (row a) (row b) := by
  have keys := transCmp_compareBy h spec.keys
  unfold SortSpec.compareRows
  cases spec.direction with
  | ascending => exact keys
  | descending =>
    have swap : (fun a b => ((row a).compareBy spec.keys (row b)).swap) =
        fun a b => (row b).compareBy spec.keys (row a) := by
      funext a b
      exact (keys.eq_swap).symm
    simp only [swap]
    exact Std.TransCmp.opposite

end Rows

namespace Row

/-- The rows have equal values under every key. -/
def Ties (keys : List String) (a b : Row) : Prop :=
  ∀ key ∈ keys, ∃ x y, a.get? key = some x ∧ b.get? key = some y ∧ (x == y) = true

/-- Under the first key on which the rows differ the value of `a` comes before that of `b`. -/
def Before (keys : List String) (a b : Row) : Prop :=
  ∃ front key back, keys = front ++ key :: back ∧ Ties front a b ∧
    ∃ x y, a.get? key = some x ∧ b.get? key = some y ∧ x.Below y

/-- The row has a value under every key, and none of them is a number that is none. -/
def Keyed (keys : List String) (row : Row) : Prop :=
  ∀ key ∈ keys, ∃ value, row.get? key = some value ∧ value.IsOrdered

variable {keys : List String} {a b : Row}

theorem keyed_cons_iff {key : String} {row : Row} : row.Keyed (key :: keys) ↔
    (∃ value, row.get? key = some value ∧ value.IsOrdered) ∧ row.Keyed keys :=
  List.forall_mem_cons

theorem compareBy_eq_eq_iff (ha : a.Keyed keys) (hb : b.Keyed keys) :
    a.compareBy keys b = .eq ↔ a.Ties keys b := by
  induction keys with
  | nil => simp [compareBy, Ties]
  | cons key keys ih =>
    obtain ⟨⟨x, hx, ordered⟩, ha⟩ := keyed_cons_iff.1 ha
    obtain ⟨⟨y, hy, ordered'⟩, hb⟩ := keyed_cons_iff.1 hb
    rw [compareBy, Ordering.then_eq_eq, ih ha hb, Ties, Ties, List.forall_mem_cons, hx, hy,
      compareCells, FieldValue.compare_eq_eq_iff ordered ordered']
    simp

theorem before_cons_iff {key : String} : a.Before (key :: keys) b ↔
    ∃ x y, a.get? key = some x ∧ b.get? key = some y ∧
      (x.Below y ∨ (x == y) = true ∧ a.Before keys b) := by
  constructor
  · rintro ⟨front, first, back, hkeys, ties, x, y, hx, hy, below⟩
    cases front with
    | nil =>
      cases hkeys
      exact ⟨x, y, hx, hy, .inl below⟩
    | cons other front =>
      cases hkeys
      obtain ⟨⟨u, v, hu, hv, equal⟩, rest⟩ := List.forall_mem_cons.1 ties
      exact ⟨u, v, hu, hv, .inr ⟨equal, front, first, back, rfl, rest, x, y, hx, hy, below⟩⟩
  · rintro ⟨x, y, hx, hy, below | ⟨equal, front, first, back, rfl, ties, rest⟩⟩
    · exact ⟨[], key, keys, rfl, by simp [Ties], x, y, hx, hy, below⟩
    · exact ⟨key :: front, first, back, rfl,
        List.forall_mem_cons.2 ⟨⟨x, y, hx, hy, equal⟩, ties⟩, rest⟩

theorem compareBy_eq_lt_iff (ha : a.Keyed keys) (hb : b.Keyed keys) :
    a.compareBy keys b = .lt ↔ a.Before keys b := by
  induction keys with
  | nil => simp [compareBy, Before]
  | cons key keys ih =>
    obtain ⟨⟨x, hx, ordered⟩, ha⟩ := keyed_cons_iff.1 ha
    obtain ⟨⟨y, hy, ordered'⟩, hb⟩ := keyed_cons_iff.1 hb
    rw [compareBy, Ordering.then_eq_lt, ih ha hb, before_cons_iff, hx, hy, compareCells,
      FieldValue.compare_eq_lt_iff, FieldValue.compare_eq_eq_iff ordered ordered']
    simp

theorem compareBy_swap (ha : a.Keyed keys) (hb : b.Keyed keys) :
    a.compareBy keys b = (b.compareBy keys a).swap := by
  induction keys with
  | nil => rfl
  | cons key keys ih =>
    obtain ⟨⟨x, hx, ordered⟩, ha⟩ := keyed_cons_iff.1 ha
    obtain ⟨⟨y, hy, ordered'⟩, hb⟩ := keyed_cons_iff.1 hb
    rw [compareBy, compareBy, Ordering.swap_then, ih ha hb, hx, hy, compareCells, compareCells,
      FieldValue.compare_swap ordered ordered']

/-- Only the values under the keys are looked at. -/
theorem compareBy_of_get? {a' b' : Row} (ha : ∀ key ∈ keys, a.get? key = a'.get? key)
    (hb : ∀ key ∈ keys, b.get? key = b'.get? key) :
    a.compareBy keys b = a'.compareBy keys b' := by
  induction keys with
  | nil => rfl
  | cons key keys ih =>
    rw [compareBy, compareBy, ha key List.mem_cons_self, hb key List.mem_cons_self,
      ih (fun other hother => ha other (List.mem_cons_of_mem key hother))
        (fun other hother => hb other (List.mem_cons_of_mem key hother))]

end Row

namespace SortSpec

variable {spec : SortSpec} {a b : Row}

/-- The first row comes before the second in the direction of the sort. -/
def Before (spec : SortSpec) (a b : Row) : Prop :=
  match spec.direction with
  | .ascending => a.Before spec.keys b
  | .descending => b.Before spec.keys a

theorem compareRows_eq_lt_iff (ha : a.Keyed spec.keys) (hb : b.Keyed spec.keys) :
    spec.compareRows a b = .lt ↔ spec.Before a b := by
  unfold compareRows Before
  cases spec.direction with
  | ascending => exact Row.compareBy_eq_lt_iff ha hb
  | descending =>
    dsimp only
    rw [← Row.compareBy_swap hb ha, Row.compareBy_eq_lt_iff hb ha]

theorem compareRows_eq_eq_iff (ha : a.Keyed spec.keys) (hb : b.Keyed spec.keys) :
    spec.compareRows a b = .eq ↔ a.Ties spec.keys b := by
  rw [← Row.compareBy_eq_eq_iff ha hb]
  unfold compareRows
  cases spec.direction with
  | ascending => rfl
  | descending => exact Ordering.swap_eq_eq

theorem compareRows_of_get? {a' b' : Row} (ha : ∀ key ∈ spec.keys, a.get? key = a'.get? key)
    (hb : ∀ key ∈ spec.keys, b.get? key = b'.get? key) :
    spec.compareRows a b = spec.compareRows a' b' := by
  unfold compareRows
  rw [Row.compareBy_of_get? ha hb]

end SortSpec

end CampusQuery
