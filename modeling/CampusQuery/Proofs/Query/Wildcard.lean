import Mathlib.Data.List.Infix
import CampusQuery.Query.Wildcard

/-!
What wildcard patterns match. Main statement: a compiled pattern matches the texts in which the
literal occurs, at the start unless a star stands before it and at the end unless one follows.
-/

namespace CampusQuery

/-- The text fits a pattern that is an optional star, a literal and an optional star. A single star
stands before an empty literal. -/
def fitsWildcard (pattern text : String) : Bool :=
  if pattern.toList.head? = some '*' then
    let rest := pattern.toList.tail
    if rest.getLast? = some '*' then rest.dropLast <:+: text.toList else rest <:+ text.toList
  else
    let rest := pattern.toList
    if rest.getLast? = some '*' then rest.dropLast <+: text.toList else rest = text.toList

namespace Wildcard

theorem anyTail_iff {p : List Char → Bool} {cs : List Char} :
    anyTail p cs = true ↔ ∃ tail, tail <:+ cs ∧ p tail = true := by
  induction cs with
  | nil => simp [anyTail]
  | cons c cs ih =>
    simp only [anyTail, Bool.or_eq_true, ih, List.suffix_cons_iff]
    constructor
    · rintro (h | ⟨tail, hsuffix, h⟩)
      · exact ⟨c :: cs, .inl rfl, h⟩
      · exact ⟨tail, .inr hsuffix, h⟩
    · rintro ⟨tail, rfl | hsuffix, h⟩
      · exact .inl h
      · exact .inr ⟨tail, hsuffix, h⟩

/-- A star at the end takes up whatever is left. -/
theorem matchPieces_star (cs : List Char) : matchPieces [.anyText] cs = true :=
  anyTail_iff.2 ⟨[], List.nil_suffix, rfl⟩

theorem matchPieces_literal (literal : List Char) (pieces : List PatternPiece)
    (cs : List Char) :
    matchPieces (literal.map .char ++ pieces) cs = true ↔
      ∃ rest, cs = literal ++ rest ∧ matchPieces pieces rest = true := by
  induction literal generalizing cs with
  | nil => simp
  | cons c literal ih =>
    cases cs with
    | nil => simp [matchPieces]
    | cons d cs =>
      simp only [List.map_cons, List.cons_append, matchPieces, Bool.and_eq_true, beq_iff_eq, ih,
        List.cons.injEq]
      grind

theorem matchPieces_char_iff {literal cs : List Char} :
    matchPieces (literal.map .char) cs = true ↔ literal = cs := by
  have h := matchPieces_literal literal [] cs
  rw [List.append_nil] at h
  rw [h]
  simp only [matchPieces, List.isEmpty_iff, exists_eq_right, List.append_nil]
  exact eq_comm

theorem matchPieces_char_star_iff {literal cs : List Char} :
    matchPieces (literal.map .char ++ [.anyText]) cs = true ↔ literal <+: cs := by
  simp only [matchPieces_literal, matchPieces_star, and_true,
    List.prefix_iff_exists_eq_append]

theorem matchPieces_star_char_iff {literal cs : List Char} :
    matchPieces (.anyText :: literal.map .char) cs = true ↔ literal <:+ cs := by
  simp [matchPieces, anyTail_iff, matchPieces_char_iff]

theorem matchPieces_star_char_star_iff {literal cs : List Char} :
    matchPieces (.anyText :: (literal.map .char ++ [.anyText])) cs = true ↔ literal <:+: cs := by
  rw [List.infix_iff_prefix_suffix]
  simp only [matchPieces, anyTail_iff, matchPieces_char_star_iff, and_comm]

theorem isMatch_of_compile {pattern text : String} {w : Wildcard}
    (h : compile pattern = .ok w) : w.isMatch text = fitsWildcard pattern text := by
  unfold compile at h
  simp only [beq_iff_eq, List.drop_one] at h
  split at h
  · contradiction
  cases h
  rw [Bool.eq_iff_iff]
  unfold isMatch fitsWildcard ofParts
  by_cases leading : pattern.toList.head? = some '*'
  · by_cases trailing : pattern.toList.tail.getLast? = some '*'
    · simpa [leading, trailing, -List.map_tail, -List.map_dropLast]
        using matchPieces_star_char_star_iff
    · simpa [leading, trailing, -List.map_tail, -List.map_dropLast] using matchPieces_star_char_iff
  · by_cases trailing : pattern.toList.getLast? = some '*'
    · simpa [leading, trailing, -List.map_tail, -List.map_dropLast] using matchPieces_char_star_iff
    · simpa [leading, trailing, -List.map_tail, -List.map_dropLast] using matchPieces_char_iff

end Wildcard

end CampusQuery
