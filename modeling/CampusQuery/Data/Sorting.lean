/-!
Stable sorting by a comparison. Short lists are sorted by insertion, which settles the order also
where the comparison is no order at all.
-/

namespace CampusQuery

/-- Puts `x` into a list that is kept greatest first, behind the elements that it comes before. -/
def insertDescending (compare : α → α → Ordering) (x : α) : List α → List α
  | [] => [x]
  | y :: ys => if compare x y = .lt then y :: insertDescending compare x ys else x :: y :: ys

/-- Inserts each element after those that it does not come before. -/
def insertionSort (compare : α → α → Ordering) (xs : List α) : List α :=
  (xs.foldl (fun sorted x => insertDescending compare x sorted) []).reverse

/-- Lists of at most this length are sorted by insertion. -/
def shortLength : Nat := 20

/-- Sorts so that elements that compare equal keep their order. -/
def stableSort (compare : α → α → Ordering) (xs : List α) : List α :=
  if xs.length ≤ shortLength then insertionSort compare xs
  else xs.mergeSort fun a b => compare a b ≠ .gt

end CampusQuery
