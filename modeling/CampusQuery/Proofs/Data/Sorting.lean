import Mathlib.Data.List.Forall2
import CampusQuery.Data.Sorting

/-!
Sorting. Main statements: a sorted list has the elements of the list, in the order of the comparison
and, where elements tie, in the order of the list; and lists whose elements compare alike are sorted
alike.
-/

namespace CampusQuery

variable {α : Type u} (compare : α → α → Ordering)

theorem insertDescending_perm (x : α) (ys : List α) :
    (insertDescending compare x ys).Perm (x :: ys) := by
  induction ys with
  | nil => exact List.Perm.refl _
  | cons y ys ih =>
    rw [insertDescending]
    split
    · exact (ih.cons y).trans (List.Perm.swap x y ys)
    · exact List.Perm.refl _

theorem insertionSort_perm (xs : List α) : (insertionSort compare xs).Perm xs := by
  have inserted : ∀ sorted : List α,
      (xs.foldl (fun sorted x => insertDescending compare x sorted) sorted).Perm
        (xs ++ sorted) := by
    induction xs with
    | nil => exact fun sorted => List.Perm.refl sorted
    | cons x xs ih =>
      intro sorted
      have next := (ih (insertDescending compare x sorted)).trans
        ((insertDescending_perm compare x sorted).append_left xs)
      exact next.trans List.perm_middle
  have all := inserted []
  rw [List.append_nil] at all
  exact (List.reverse_perm _).trans all

theorem stableSort_perm (xs : List α) : (stableSort compare xs).Perm xs := by
  unfold stableSort
  split
  · exact insertionSort_perm compare xs
  · exact List.mergeSort_perm xs _

/-- The first comes before the second, or they tie and stand in the relation. -/
def Precedes (r : α → α → Prop) (a b : α) : Prop :=
  compare a b = .lt ∨ compare a b = .eq ∧ r a b

section Stability

variable {compare} {r : α → α → Prop} {xs : List α}

theorem Precedes.isLE {a b : α} (h : Precedes compare r a b) : (compare a b).isLE := by
  rcases h with h | ⟨h, -⟩ <;> rw [h] <;> rfl

theorem Precedes.asymm [Std.OrientedCmp compare] (hr : ∀ {a b}, r a b → ¬r b a) {a b : α}
    (h : Precedes compare r a b) : ¬Precedes compare r b a := by
  have swap : compare b a = (compare a b).swap := Std.OrientedCmp.eq_swap
  rw [Precedes, swap]
  obtain h | ⟨h, hab⟩ := h
  · simp [h]
  · simp [h, hr hab]

theorem precedes_of_isLE {a b : α} (h : (compare a b).isLE) (hr : r a b) :
    Precedes compare r a b := by
  rcases Ordering.isLE_iff_eq_lt_or_eq_eq.1 h with h | h
  · exact .inl h
  · exact .inr ⟨h, hr⟩

theorem ne_gt_iff_isLE (a b : α) :
    (decide (compare a b ≠ .gt)) = true ↔ (compare a b).isLE = true := by
  rw [decide_eq_true_eq, Ordering.isLE_iff_ne_gt]

variable [Std.TransCmp compare]

theorem pairwise_insertDescending {x : α} {ys : List α}
    (sorted : ys.Pairwise fun b a => Precedes compare r a b) (behind : ∀ y ∈ ys, r y x) :
    (insertDescending compare x ys).Pairwise fun b a => Precedes compare r a b := by
  induction ys with
  | nil => exact List.pairwise_singleton _ _
  | cons y ys ih =>
    obtain ⟨below, rest⟩ := List.pairwise_cons.1 sorted
    rw [List.forall_mem_cons] at behind
    rw [insertDescending]
    split
    · next hlt =>
      refine List.pairwise_cons.2 ⟨fun z hz => ?_, ih rest behind.2⟩
      rcases List.mem_cons.1 ((insertDescending_perm compare x ys).mem_iff.1 hz) with rfl | hz
      · exact .inl hlt
      · exact below z hz
    · next hge =>
      have hle : (compare y x).isLE := by
        rw [Ordering.isLE_iff_ne_gt]
        exact fun hgt => hge (Std.OrientedCmp.gt_iff_lt.1 hgt)
      refine List.pairwise_cons.2 ⟨fun z hz => ?_, sorted⟩
      rcases List.mem_cons.1 hz with rfl | hz
      · exact precedes_of_isLE hle behind.1
      · exact precedes_of_isLE (Std.TransCmp.isLE_trans (below z hz).isLE hle) (behind.2 z hz)

/-- The induction is on the elements that are left: those in place stand before them by `r`. -/
theorem pairwise_insertionSort (h : xs.Pairwise r) :
    (insertionSort compare xs).Pairwise (Precedes compare r) := by
  have inserted : ∀ sorted : List α, sorted.Pairwise (fun b a => Precedes compare r a b) →
      (∀ y ∈ sorted, ∀ x ∈ xs, r y x) →
      (xs.foldl (fun sorted x => insertDescending compare x sorted) sorted).Pairwise
        fun b a => Precedes compare r a b := by
    induction xs with
    | nil => exact fun sorted hsorted _ => hsorted
    | cons x xs ih =>
      intro sorted hsorted behind
      obtain ⟨after, rest⟩ := List.pairwise_cons.1 h
      apply ih rest
      · exact pairwise_insertDescending hsorted fun y hy => behind y hy x List.mem_cons_self
      · intro y hy z hz
        rcases List.mem_cons.1 ((insertDescending_perm compare x sorted).mem_iff.1 hy) with rfl | hy
        · exact after z hz
        · exact behind y hy z (List.mem_cons_of_mem x hz)
  rw [insertionSort, List.pairwise_reverse]
  exact inserted [] .nil (by simp)

/-- Numbered elements of the list, compared by their numbers where they tie. -/
theorem precedes_of_zipIdxLE (h : xs.Pairwise r) {a b : α × Nat} (ha : a ∈ xs.zipIdx)
    (hb : b ∈ xs.zipIdx) (hne : a.2 ≠ b.2)
    (hle : List.zipIdxLE (fun a b => compare a b ≠ .gt) a b = true) :
    Precedes compare r a.1 b.1 := by
  obtain ⟨hia, hxa⟩ := List.getElem?_eq_some_iff.1 (List.mk_mem_zipIdx_iff_getElem?.1 ha)
  obtain ⟨hib, hxb⟩ := List.getElem?_eq_some_iff.1 (List.mk_mem_zipIdx_iff_getElem?.1 hb)
  rw [List.zipIdxLE] at hle
  split at hle
  · next below =>
    split at hle
    · have hlt : a.2 < b.2 := by
        have := of_decide_eq_true hle
        omega
      apply precedes_of_isLE ((ne_gt_iff_isLE _ _).1 below)
      rw [← hxa, ← hxb]
      exact List.pairwise_iff_getElem.1 h a.2 b.2 hia hib hlt
    · next above =>
      rw [ne_gt_iff_isLE, Ordering.isLE_iff_ne_gt, not_not] at above
      exact .inl (Std.OrientedCmp.gt_iff_lt.1 above)
  · contradiction

theorem pairwise_mergeSort (h : xs.Pairwise r) :
    (xs.mergeSort fun a b => compare a b ≠ .gt).Pairwise (Precedes compare r) := by
  have trans : ∀ a b c : α, decide (compare a b ≠ .gt) = true → decide (compare b c ≠ .gt) = true →
      decide (compare a c ≠ .gt) = true := by
    simp only [ne_gt_iff_isLE]
    exact fun a b c => Std.TransCmp.isLE_trans
  have total : ∀ a b : α, (decide (compare a b ≠ .gt) || decide (compare b a ≠ .gt)) = true := by
    intro a b
    have swap : compare b a = (compare a b).swap := Std.OrientedCmp.eq_swap
    rw [Bool.or_eq_true, ne_gt_iff_isLE, ne_gt_iff_isLE, swap]
    cases compare a b <;> simp
  have sorted := List.pairwise_mergeSort (List.zipIdxLE_trans trans) (List.zipIdxLE_total total)
    xs.zipIdx
  have numbers : (xs.zipIdx.map Prod.snd).Nodup := by
    rw [List.zipIdx_map_snd]
    exact List.nodup_range'
  have perm := List.mergeSort_perm xs.zipIdx (List.zipIdxLE fun a b => compare a b ≠ .gt)
  have places := List.pairwise_map.1 ((perm.map Prod.snd).nodup_iff.2 numbers)
  rw [← List.mergeSort_zipIdx, List.pairwise_map]
  exact (sorted.and places).imp_of_mem fun ha hb hab =>
    precedes_of_zipIdxLE h (perm.mem_iff.1 ha) (perm.mem_iff.1 hb) hab.2 hab.1

/-- Ties stay in the relation in which the elements of the list stand. -/
theorem pairwise_stableSort (h : xs.Pairwise r) :
    (stableSort compare xs).Pairwise (Precedes compare r) := by
  unfold stableSort
  split
  · exact pairwise_insertionSort h
  · exact pairwise_mergeSort h

end Stability

section Ties

variable {compare} [Std.TransCmp compare] {xs ys : List α}

/-- Sorted lists of the same elements tie at each place. -/
theorem forall₂_eq_of_perm (h : xs.Perm ys) (hxs : xs.Pairwise fun a b => (compare a b).isLE)
    (hys : ys.Pairwise fun a b => (compare a b).isLE) :
    List.Forall₂ (fun a b => compare a b = .eq) xs ys := by
  -- What an element does not exceed stands for it, and is the same for elements that tie.
  let above (a c : α) : Bool := (compare a c).isLE
  have below : ∀ a b, (compare a b).isLE → ∀ c, above b c = true → above a c = true :=
    fun a b hab c hbc => Std.TransCmp.isLE_trans hab hbc
  have ties : ∀ a b, above a = above b → compare a b = .eq := by
    intro a b heq
    have hab : above a b = true := by
      rw [heq]
      exact Std.ReflCmp.isLE_rfl
    have hba : above b a = true := by
      rw [← heq]
      exact Std.ReflCmp.isLE_rfl
    exact Std.OrientedCmp.isLE_antisymm hab hba
  have sorted : ∀ {zs : List α}, zs.Pairwise (fun a b => (compare a b).isLE) →
      (zs.map above).Pairwise fun p q => ∀ c, q c = true → p c = true :=
    fun hzs => List.pairwise_map.2 (hzs.imp fun {a b} => below a b)
  have equal : xs.map above = ys.map above := by
    refine List.Perm.eq_of_pairwise ?_ (sorted hxs) (sorted hys) (h.map above)
    intro p q _ _ hqp hpq
    funext c
    exact Bool.eq_iff_iff.2 ⟨hpq c, hqp c⟩
  rw [← List.forall₂_eq_eq_eq, List.forall₂_map_left_iff, List.forall₂_map_right_iff] at equal
  exact equal.imp ties

end Ties

section Map

variable {β : Type v} {compare : α → α → Ordering} {compare' : β → β → Ordering} {f : α → β}
  (h : ∀ a b, compare a b = compare' (f a) (f b))

include h

theorem map_insertDescending (x : α) (ys : List α) :
    (insertDescending compare x ys).map f = insertDescending compare' (f x) (ys.map f) := by
  induction ys with
  | nil => rfl
  | cons y ys ih =>
    rw [insertDescending, List.map_cons, insertDescending, h]
    split
    · rw [List.map_cons, ih]
    · rfl

theorem map_insertionSort (xs : List α) :
    (insertionSort compare xs).map f = insertionSort compare' (xs.map f) := by
  have inserted : ∀ sorted : List α,
      (xs.foldl (fun sorted x => insertDescending compare x sorted) sorted).map f =
        (xs.map f).foldl (fun sorted x => insertDescending compare' x sorted) (sorted.map f) := by
    induction xs with
    | nil => exact fun sorted => rfl
    | cons x xs ih =>
      intro sorted
      rw [List.foldl_cons, ih, map_insertDescending h, List.map_cons, List.foldl_cons]
  rw [insertionSort, insertionSort, List.map_reverse, inserted]
  rfl

/-- Sorting sees elements only in comparisons. -/
theorem map_stableSort (xs : List α) :
    (stableSort compare xs).map f = stableSort compare' (xs.map f) := by
  rw [stableSort, stableSort, List.length_map]
  split
  · exact map_insertionSort h xs
  · exact List.map_mergeSort fun a _ b _ => by rw [h]

end Map

/-- Lists whose elements correspond and compare alike are sorted alike: the pairs of elements are
sorted, and each list is one side of them. -/
theorem forall₂_stableSort {β : Type v} {R : α → β → Prop} {compare : α → α → Ordering}
    {compare' : β → β → Ordering} {xs : List α} {ys : List β} (h : List.Forall₂ R xs ys)
    (hcompare : ∀ a a' b b', R a b → R a' b' → compare a a' = compare' b b') :
    List.Forall₂ R (stableSort compare xs) (stableSort compare' ys) := by
  obtain ⟨pairs, rfl, rfl⟩ : ∃ pairs : List { pair : α × β // R pair.1 pair.2 },
      pairs.map (·.1.1) = xs ∧ pairs.map (·.1.2) = ys := by
    induction h with
    | nil => exact ⟨[], rfl, rfl⟩
    | @cons a b _ _ head _ ih =>
      obtain ⟨pairs, rfl, rfl⟩ := ih
      exact ⟨⟨(a, b), head⟩ :: pairs, rfl, rfl⟩
  let compared (p q : { pair : α × β // R pair.1 pair.2 }) : Ordering := compare p.1.1 q.1.1
  have left := map_stableSort (f := fun p : { pair : α × β // R pair.1 pair.2 } => p.1.1)
    (fun p q => (rfl : compared p q = compare p.1.1 q.1.1)) pairs
  have right := map_stableSort (f := fun p : { pair : α × β // R pair.1 pair.2 } => p.1.2)
    (fun p q => (hcompare _ _ _ _ p.2 q.2 : compared p q = compare' p.1.2 q.1.2)) pairs
  rw [← left, ← right, List.forall₂_map_left_iff, List.forall₂_map_right_iff, List.forall₂_same]
  exact fun pair _ => pair.2

end CampusQuery
