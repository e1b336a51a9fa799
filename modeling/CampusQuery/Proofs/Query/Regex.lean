import CampusQuery.Proofs.Query.Filters
import CampusQuery.Proofs.Query.Wildcard
import CampusQuery.Proofs.Text.Offsets

/-!
The regular expressions of patterns. Main statement: a pattern is refused exactly when a star is
inside it, and the expression of any other finds the texts that the literal between the stars ends,
begins, is part of or is equal to.
-/

namespace CampusQuery

section Expressions

/-- The constructs of the expressions: the two anchors, `(?s:.*)` and a character. -/
inductive RegexPart where
  | start
  | finish
  | anyText
  | char (c : Char)
  deriving DecidableEq

/-- Reads an expression; none for constructs other than these. -/
def readRegex? : List Char → Option (List RegexPart)
  | [] => some []
  | '^' :: cs => (readRegex? cs).map (.start :: ·)
  | '$' :: cs => (readRegex? cs).map (.finish :: ·)
  | '(' :: '?' :: 's' :: ':' :: '.' :: '*' :: ')' :: cs => (readRegex? cs).map (.anyText :: ·)
  | '\\' :: c :: cs =>
    if Wildcard.isOperator c then (readRegex? cs).map (.char c :: ·) else none
  | c :: cs => if Wildcard.isOperator c then none else (readRegex? cs).map (.char c :: ·)

/-- The parts take up the middle of a text that goes on to both sides. -/
inductive Spans : List RegexPart → List Char → List Char → List Char → Prop where
  | nil {before after : List Char} : Spans [] before [] after
  | start {parts : List RegexPart} {middle after : List Char} (rest : Spans parts [] middle after) :
    Spans (.start :: parts) [] middle after
  | finish {parts : List RegexPart} {before : List Char} (rest : Spans parts before [] []) :
    Spans (.finish :: parts) before [] []
  | anyText {parts : List RegexPart} {before middle after : List Char} (taken : List Char)
    (rest : Spans parts (before ++ taken) middle after) :
    Spans (.anyText :: parts) before (taken ++ middle) after
  | char {parts : List RegexPart} {before middle after : List Char} {c : Char}
    (rest : Spans parts (before ++ [c]) middle after) :
    Spans (.char c :: parts) before (c :: middle) after

/-- The expression is found somewhere in the text. -/
def RegexFinds (regex text : String) : Prop :=
  ∃ parts, readRegex? regex.toList = some parts ∧ ∃ before middle after,
    text.toList = before ++ middle ++ after ∧ Spans parts before middle after

end Expressions

namespace PatternPiece

def part : PatternPiece → RegexPart
  | .anyText => .anyText
  | .char c => .char c

theorem readRegex?_append (piece : PatternPiece) (cs : List Char) :
    readRegex? (Wildcard.pieceChars piece ++ cs) = (readRegex? cs).map (piece.part :: ·) := by
  cases piece with
  | anyText => rfl
  | char c =>
    by_cases h : Wildcard.isOperator c
    · simp [Wildcard.pieceChars, h, readRegex?, part]
    · have plain : Wildcard.pieceChars (.char c) = [c] := if_neg h
      rw [plain, List.singleton_append, readRegex?, if_neg h]
      · rfl
      all_goals
        intros
        subst c
        exact h (by decide)

theorem readRegex?_flatMap (pieces : List PatternPiece) (cs : List Char) :
    readRegex? (pieces.flatMap Wildcard.pieceChars ++ cs) =
      (readRegex? cs).map (pieces.map part ++ ·) := by
  induction pieces with
  | nil => simp
  | cons piece pieces ih =>
    rw [List.flatMap_cons, List.append_assoc, readRegex?_append, ih, Option.map_map]
    rfl

/-- Up to the end of the text, the parts span what the pieces match. -/
theorem spans_iff {pieces : List PatternPiece} {before middle after : List Char} :
    Spans (pieces.map part ++ [.finish]) before middle after ↔
      after = [] ∧ Wildcard.matchPieces pieces middle = true := by
  induction pieces generalizing before middle with
  | nil =>
    simp only [List.map_nil, List.nil_append, Wildcard.matchPieces, List.isEmpty_iff]
    constructor
    · rintro ⟨⟩
      exact ⟨rfl, rfl⟩
    · rintro ⟨rfl, rfl⟩
      exact .finish .nil
  | cons piece pieces ih =>
    rw [List.map_cons, List.cons_append]
    cases piece with
    | anyText =>
      rw [Wildcard.matchPieces, Wildcard.anyTail_iff]
      constructor
      · rintro (_ | _ | _ | ⟨taken, rest⟩)
        obtain ⟨rfl, h⟩ := ih.1 rest
        exact ⟨rfl, _, List.suffix_append taken _, h⟩
      · rintro ⟨rfl, tail, ⟨taken, rfl⟩, h⟩
        exact .anyText taken (ih.2 ⟨rfl, h⟩)
    | char c =>
      constructor
      · rintro (_ | _ | _ | _ | rest)
        obtain ⟨rfl, h⟩ := ih.1 rest
        exact ⟨rfl, by simp [Wildcard.matchPieces, h]⟩
      · rintro ⟨rfl, h⟩
        cases middle with
        | nil => contradiction
        | cons d middle =>
          rw [Wildcard.matchPieces, Bool.and_eq_true, beq_iff_eq] at h
          obtain ⟨rfl, h⟩ := h
          exact .char (ih.2 ⟨rfl, h⟩)

end PatternPiece

namespace Wildcard

theorem readRegex?_regex (w : Wildcard) :
    readRegex? w.regex.toList = some (.start :: (w.pieces.map PatternPiece.part ++ [.finish])) := by
  rw [regex, String.toList_ofList, List.cons_append, readRegex?, PatternPiece.readRegex?_flatMap]
  rfl

/-- The expression finds the texts that the pieces match from end to end. -/
theorem regexFinds_iff {w : Wildcard} {text : String} :
    RegexFinds w.regex text ↔ w.isMatch text = true := by
  rw [RegexFinds, readRegex?_regex, isMatch]
  constructor
  · rintro ⟨parts, ⟨⟩, before, middle, after, htext, spans⟩
    cases spans with
    | start rest =>
      obtain ⟨rfl, h⟩ := PatternPiece.spans_iff.1 rest
      rwa [htext, List.nil_append, List.append_nil]
  · intro h
    exact ⟨_, rfl, [], text.toList, [], by simp, .start (PatternPiece.spans_iff.2 ⟨rfl, h⟩)⟩

/-- A star, where there is one. -/
def starIf (present : Bool) : List Char :=
  if present then ['*'] else []

/-- The pattern is a literal without stars between the stars that are present. -/
structure Splits (pattern : String) (leading : Bool) (literal : List Char) (trailing : Bool) :
    Prop where
  eq : pattern.toList = starIf leading ++ (literal ++ starIf trailing)
  plain : '*' ∉ literal

/-- The text is the literal, up to what the stars stand for. -/
def Fits (leading : Bool) (literal : List Char) (trailing : Bool) (text : List Char) : Prop :=
  match leading, trailing with
  | false, false => literal = text
  | true, false => literal <:+ text
  | false, true => literal <+: text
  | true, true => literal <:+: text

variable {raw text : String} {leading trailing : Bool} {literal : List Char} {w : Wildcard}

theorem head?_append_starIf (plain : '*' ∉ literal) (trailing : Bool) :
    (literal ++ starIf trailing).head? = some '*' ↔ literal = [] ∧ trailing = true := by
  cases literal with
  | nil => cases trailing <;> simp [starIf]
  | cons c literal => simpa [starIf] using fun h : c = '*' => plain (h ▸ List.mem_cons_self)

theorem getLast?_append_starIf (plain : '*' ∉ literal) (trailing : Bool) :
    (literal ++ starIf trailing).getLast? = some '*' ↔ trailing = true := by
  cases trailing with
  | true => simp [starIf]
  | false =>
    simp only [starIf, Bool.false_eq_true, if_false, List.append_nil, iff_false]
    exact fun h => plain (List.mem_of_getLast? h)

theorem Splits.fitsWildcard_iff (h : Splits raw leading literal trailing) :
    fitsWildcard raw text = true ↔ Fits leading literal trailing text.toList := by
  have head := head?_append_starIf h.plain trailing
  have last := getLast?_append_starIf h.plain trailing
  rw [fitsWildcard, h.eq]
  cases leading with
  | true => cases trailing <;> simp_all [starIf, Fits]
  | false => cases trailing <;> simp_all [starIf, Fits]

/-- A star that stands alone is a leading one. -/
def Canonical (leading : Bool) (literal : List Char) (trailing : Bool) : Prop :=
  trailing = true → leading = true ∨ literal ≠ []

theorem not_mem_inner (plain : '*' ∉ literal) (leading trailing : Bool) :
    '*' ∉ ((starIf leading ++ (literal ++ starIf trailing)).drop 1).dropLast := by
  have inside : ∀ {cs : List Char}, '*' ∉ cs → '*' ∉ cs.dropLast := fun h hmem =>
    h (List.mem_of_mem_dropLast hmem)
  cases leading with
  | true =>
    cases trailing with
    | true => simpa [starIf] using plain
    | false => simpa [starIf] using inside plain
  | false =>
    cases literal with
    | nil => cases trailing <;> simp [starIf]
    | cons c literal =>
      have plain : '*' ∉ literal := fun h => plain (List.mem_cons_of_mem _ h)
      cases trailing with
      | true => simpa [starIf] using plain
      | false => simpa [starIf] using inside plain

theorem Splits.head_eq (h : Splits raw leading literal trailing)
    (canonical : Canonical leading literal trailing) :
    (raw.toList.head? == some '*') = leading := by
  rw [h.eq]
  cases leading with
  | true => rfl
  | false =>
    have head := head?_append_starIf h.plain trailing
    rw [starIf, if_neg Bool.false_ne_true, List.nil_append, beq_eq_false_iff_ne, Ne, head]
    rintro ⟨hliteral, htrailing⟩
    exact (canonical htrailing).elim Bool.false_ne_true (absurd hliteral)

theorem Splits.compile_eq (h : Splits raw leading literal trailing)
    (canonical : Canonical leading literal trailing) :
    compile raw = .ok (ofParts raw leading literal trailing) := by
  have rest : (if leading then raw.toList.drop 1 else raw.toList) = literal ++ starIf trailing := by
    rw [h.eq]
    cases leading <;> rfl
  have last : ((literal ++ starIf trailing).getLast? == some '*') = trailing := by
    rw [Bool.eq_iff_iff, beq_iff_eq, getLast?_append_starIf h.plain]
  have between : (if trailing then (literal ++ starIf trailing).dropLast
      else literal ++ starIf trailing) = literal := by
    cases trailing <;> simp [starIf]
  have inner := not_mem_inner h.plain leading trailing
  rw [← h.eq] at inner
  simp only [compile, if_neg inner, h.head_eq canonical, rest, last, between]

/-- A pattern without a star inside it can be split. -/
theorem exists_splits (h : '*' ∉ (raw.toList.drop 1).dropLast) : ∃ leading literal trailing,
    Splits raw leading literal trailing ∧ Canonical leading literal trailing := by
  generalize hcs : raw.toList = cs at h
  cases cs with
  | nil => exact ⟨false, [], false, ⟨hcs, List.not_mem_nil⟩, nofun⟩
  | cons c rest =>
    obtain rfl | ⟨inner, d, rfl⟩ := rest.eq_nil_or_concat
    · by_cases hc : c = '*'
      · exact ⟨true, [], false, ⟨by rw [hcs, hc]; rfl, List.not_mem_nil⟩, nofun⟩
      · exact ⟨false, [c], false, ⟨hcs, by simpa using Ne.symm hc⟩, nofun⟩
    · rw [List.drop_one, List.tail_cons, List.concat_eq_append, List.dropLast_concat] at h
      by_cases hc : c = '*' <;> by_cases hd : d = '*'
      · exact ⟨true, inner, true, ⟨by simp [hcs, hc, hd, starIf], h⟩, fun _ => .inl rfl⟩
      · exact ⟨true, inner ++ [d], false,
          ⟨by simp [hcs, hc, starIf], by simp [h, Ne.symm hd]⟩, nofun⟩
      · exact ⟨false, c :: inner, true, ⟨by simp [hcs, hd, starIf], by simp [h, Ne.symm hc]⟩,
          fun _ => .inr (List.cons_ne_nil _ _)⟩
      · exact ⟨false, c :: (inner ++ [d]), false, ⟨by simp [hcs, starIf],
          by simp [h, Ne.symm hc, Ne.symm hd]⟩, nofun⟩

/-- The compilation by byte offsets: the expression, or none where a text would be cut inside a
character. -/
def compileByBytes? (raw : String) : Option (Except PatternError String) := do
  let cs := raw.toList
  if 3 ≤ cs.length ∧ '*' ∈ (cs.drop 1).take (cs.length - 2) then return .error ⟨raw⟩
  let leading := cs.head? = some '*'
  let trailing := 1 < raw.utf8ByteSize ∧ cs.getLast? = some '*'
  let start := if leading then 1 else 0
  let stop := if trailing then raw.utf8ByteSize - 1 else raw.utf8ByteSize
  let literal ← if start ≤ stop then sliceBytes? start stop cs else some []
  return .ok ("^" ++ (if leading then "(?s:.*)" else "") ++
    String.ofList (literal.flatMap fun c => pieceChars (.char c)) ++
    (if trailing then "(?s:.*)" else "") ++ "$")

theorem mem_between_iff {c : Char} {cs : List Char} :
    3 ≤ cs.length ∧ c ∈ (cs.drop 1).take (cs.length - 2) ↔ c ∈ (cs.drop 1).dropLast := by
  rw [List.dropLast_eq_take, List.length_drop, Nat.sub_sub]
  refine and_iff_right_of_imp fun h => ?_
  have nonempty := List.length_pos_of_mem h
  rw [List.length_take, List.length_drop] at nonempty
  omega

theorem byteLength_starIf (present : Bool) :
    byteLength (starIf present) = if present then 1 else 0 := by
  cases present <;> rfl

theorem Splits.utf8ByteSize_eq (h : Splits raw leading literal trailing) : raw.utf8ByteSize =
    byteLength (starIf leading) + byteLength literal + byteLength (starIf trailing) := by
  rw [CampusQuery.utf8ByteSize_eq, h.eq, byteLength_append, byteLength_append, Nat.add_assoc]

/-- The code looks for a star at the end of texts of more than one byte. -/
theorem Splits.last_iff (h : Splits raw leading literal trailing)
    (canonical : Canonical leading literal trailing) :
    1 < raw.utf8ByteSize ∧ raw.toList.getLast? = some '*' ↔ trailing = true := by
  have last := getLast?_append_starIf h.plain trailing
  rw [h.utf8ByteSize_eq, byteLength_starIf, byteLength_starIf, h.eq]
  cases trailing with
  | true =>
    have more : 0 < (if leading then 1 else 0) + byteLength literal := by
      obtain rfl | hliteral := canonical rfl
      · exact Nat.add_pos_left Nat.one_pos _
      · exact Nat.add_pos_right _ (Nat.pos_of_ne_zero fun h =>
          hliteral (byteLength_eq_zero_iff.1 h))
    refine iff_of_true ⟨by simpa using more, ?_⟩ rfl
    rw [List.getLast?_append, last.2 rfl]
    rfl
  | false =>
    refine iff_of_false ?_ Bool.false_ne_true
    rintro ⟨size, hlast⟩
    cases literal with
    | nil => cases leading <;> simp at size
    | cons c literal =>
      rw [List.getLast?_append_of_ne_nil _ (by simp)] at hlast
      exact Bool.false_ne_true (last.1 hlast)

theorem Splits.slice_eq (h : Splits raw leading literal trailing) :
    sliceBytes? (if leading then 1 else 0)
      (if trailing then raw.utf8ByteSize - 1 else raw.utf8ByteSize) raw.toList = some literal := by
  have stop : (if trailing then raw.utf8ByteSize - 1 else raw.utf8ByteSize) =
      byteLength (starIf leading) + byteLength literal := by
    rw [h.utf8ByteSize_eq, byteLength_starIf trailing]
    cases trailing <;> rfl
  rw [stop, h.eq, ← byteLength_starIf]
  exact sliceBytes?_append _ _ _

theorem regex_ofParts : (ofParts raw leading literal trailing).regex =
    "^" ++ (if leading then "(?s:.*)" else "") ++
      String.ofList (literal.flatMap fun c => pieceChars (.char c)) ++
      (if trailing then "(?s:.*)" else "") ++ "$" := by
  apply String.toList_injective
  cases leading <;> cases trailing <;>
    simp [regex, ofParts, List.flatMap_map, pieceChars]

theorem Splits.compileByBytes?_eq (h : Splits raw leading literal trailing)
    (canonical : Canonical leading literal trailing) :
    compileByBytes? raw = some (.ok (ofParts raw leading literal trailing).regex) := by
  have inner := not_mem_inner h.plain leading trailing
  rw [← h.eq, ← mem_between_iff] at inner
  have head : raw.toList.head? = some '*' ↔ leading = true := by
    rw [← beq_iff_eq, h.head_eq canonical]
  have order : (if leading then 1 else 0) ≤
      if trailing then raw.utf8ByteSize - 1 else raw.utf8ByteSize := by
    rw [h.utf8ByteSize_eq, byteLength_starIf trailing, ← byteLength_starIf]
    cases trailing <;> simp [Nat.add_assoc]
  simp only [compileByBytes?, if_neg inner, head, h.last_iff canonical, if_pos order, h.slice_eq]
  rw [regex_ofParts]
  rfl

/-- The offsets never cut inside a character, and what is built between them is the expression. -/
theorem compileByBytes?_eq (raw : String) :
    compileByBytes? raw = some ((compile raw).map regex) := by
  by_cases inner : '*' ∈ (raw.toList.drop 1).dropLast
  · rw [compileByBytes?, if_pos (mem_between_iff.2 inner), compile, if_pos inner]
    rfl
  · obtain ⟨leading, literal, trailing, h, canonical⟩ := exists_splits inner
    rw [h.compileByBytes?_eq canonical, h.compile_eq canonical]
    rfl

theorem compile_eq_error_iff : (∃ e, compile raw = .error e) ↔
    ∃ i, 0 < i ∧ i + 1 < raw.toList.length ∧ raw.toList[i]? = some '*' := by
  have refused : (∃ e, compile raw = .error e) ↔ '*' ∈ (raw.toList.drop 1).dropLast := by
    simp only [compile]
    split <;> simp_all
  rw [refused, mem_inner_iff]
  constructor
  · rintro ⟨i, hi, hstar, hfirst, hlast⟩
    exact ⟨i, by omega, by omega, by rw [List.getElem?_eq_getElem hi, hstar]⟩
  · rintro ⟨i, hfirst, hlast, hstar⟩
    obtain ⟨hi, hstar⟩ := List.getElem?_eq_some_iff.1 hstar
    exact ⟨i, hi, hstar, by omega, by omega⟩

/-- Patterns as they are meant: a star may stand at either end. Anything else is refused, and the
expression that is built, the same by byte offsets, finds what the stars and the literal
describe. -/
structure Described (raw : String) : Prop where
  built : compileByBytes? raw = some ((compile raw).map regex)
  refused : (∃ e, compile raw = .error e) ↔
    ∃ i, 0 < i ∧ i + 1 < raw.toList.length ∧ raw.toList[i]? = some '*'
  splits : ∀ w, compile raw = .ok w → ∃ leading literal trailing,
    Splits raw leading literal trailing
  found : ∀ w, compile raw = .ok w → ∀ leading literal trailing,
    Splits raw leading literal trailing → ∀ text : String,
      RegexFinds w.regex text ↔ Fits leading literal trailing text.toList
  matched : ∀ w, compile raw = .ok w → ∀ leading literal trailing,
    Splits raw leading literal trailing → ∀ text : String,
      w.isMatch text = true ↔ Fits leading literal trailing text.toList

theorem compile_described (raw : String) : Described raw where
  built := compileByBytes?_eq raw
  refused := compile_eq_error_iff
  splits w h := by
    obtain ⟨leading, literal, trailing, splits, -⟩ :=
      exists_splits (isPattern_iff.1 (exists_compile_iff.1 ⟨w, h⟩))
    exact ⟨leading, literal, trailing, splits⟩
  found w h leading literal trailing splits text := by
    rw [regexFinds_iff, isMatch_of_compile h, splits.fitsWildcard_iff]
  matched w h leading literal trailing splits text := by
    rw [isMatch_of_compile h, splits.fitsWildcard_iff]

end Wildcard

end CampusQuery
