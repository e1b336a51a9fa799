import Mathlib.Data.List.Forall2
import CampusQuery.Query.Group
import CampusQuery.Proofs.Number.Double

/-!
Values and their codes. Main statement: the codes of two tuples agree exactly when the tuples have
the same values.
-/

namespace CampusQuery

namespace FieldValue

/-- Equal, or both the number that is none. -/
def same : FieldValue → FieldValue → Bool
  | .number a, .number b => a == b || decide (a = b)
  | .text a, .text b => decide (a = b)
  | _, _ => false

/-- The value is not a number that is none. -/
def IsOrdered : FieldValue → Prop
  | .number x => x.isNaN = false
  | .text _ => True

theorem same_iff_beq {a b : FieldValue} (hb : b.IsOrdered) : a.same b = true ↔ (a == b) = true := by
  cases a with
  | text a => cases b <;> simp [same, BEq.beq, beq]
  | number a =>
    cases b with
    | text b => simp [same, BEq.beq, beq]
    | number b =>
      simp only [same, Bool.or_eq_true, decide_eq_true_eq]
      constructor
      · rintro (h | rfl)
        · exact h
        · exact beq_iff.2 ⟨hb, .inl rfl⟩
      · exact .inl

theorem numberBits_eq (x : Float) :
    numberBits x = if magnitudeBits x = 0 then 0 else x.toBits.toNat := by
  have hzero : (x == 0.0) = true ↔ magnitudeBits x = 0 := by
    rw [beq_iff]
    have literal : magnitudeBits 0.0 = 0 := by decide
    constructor
    · rintro ⟨-, rfl | ⟨h, -⟩⟩
      · exact literal
      · exact h
    · intro h
      exact ⟨isNaN_eq_false_iff.2 (by omega), .inr ⟨h, literal⟩⟩
  simp only [numberBits, hzero]

theorem numberBits_eq_iff {a b : Float} :
    numberBits a = numberBits b ↔ (a == b) = true ∨ a = b := by
  have ha := toNat_toBits a
  have hb := toNat_toBits b
  rw [numberBits_eq, numberBits_eq]
  constructor
  · intro h
    by_cases hzero : magnitudeBits a = 0
    · have hzero' : magnitudeBits b = 0 := by
        rw [if_pos hzero] at h
        split at h
        · assumption
        · omega
      exact .inl (beq_iff.2 ⟨isNaN_eq_false_iff.2 (by omega), .inr ⟨hzero, hzero'⟩⟩)
    · have hzero' : magnitudeBits b ≠ 0 := by
        intro hzero'
        rw [if_neg hzero, if_pos hzero'] at h
        omega
      rw [if_neg hzero, if_neg hzero'] at h
      exact .inr (eq_of_toBits_eq (UInt64.toNat_inj.1 h))
  · rintro (h | rfl)
    · obtain ⟨-, rfl | ⟨hzero, hzero'⟩⟩ := beq_iff.1 h
      · rfl
      · rw [if_pos hzero, if_pos hzero']
    · rfl

end FieldValue

section Codes

/-- The digits of a number end where something else begins. -/
theorem toDigits_append_inj {m n : Nat} {c : Char} {u v : List Char} (hc : c.isDigit = false)
    (h : Nat.toDigits 10 m ++ c :: u = Nat.toDigits 10 n ++ c :: v) : m = n ∧ u = v := by
  have digits : ∀ k : Nat, ∀ w : List Char,
      (Nat.toDigits 10 k ++ c :: w).takeWhile Char.isDigit = Nat.toDigits 10 k ∧
        (Nat.toDigits 10 k ++ c :: w).dropWhile Char.isDigit = c :: w := by
    intro k w
    have all : ∀ d ∈ Nat.toDigits 10 k, d.isDigit = true := fun d hd =>
      Nat.isDigit_of_mem_toDigits (by decide) (by decide) hd
    rw [List.takeWhile_append_of_pos all, List.dropWhile_append_of_pos all]
    simp [hc]
  obtain ⟨taken, dropped⟩ := digits m u
  rw [h, (digits n v).1] at taken
  rw [h, (digits n v).2] at dropped
  refine ⟨?_, (List.cons.inj dropped).2.symm⟩
  rw [← Nat.ofDigitChars_ten_toDigits (n := m), ← taken, Nat.ofDigitChars_ten_toDigits]

/-- A text of the same size that goes on in another one is that text. -/
theorem eq_of_toList_append {s t : String} {w : List Char}
    (size : s.utf8ByteSize = t.utf8ByteSize) (h : t.toList = s.toList ++ w) : s = t ∧ w = [] := by
  have joined : t = s ++ String.ofList w := by
    rw [← String.toList_inj, h, String.toList_append, String.toList_ofList]
  have empty : String.ofList w = "" := by
    rw [joined, String.utf8ByteSize_append] at size
    exact String.utf8ByteSize_eq_zero_iff.1 (by omega)
  constructor
  · rw [joined, empty, String.append_empty]
  · simpa using congrArg String.toList empty

/-- The size of a text tells where it ends. -/
theorem text_append_inj {s t : String} {u v : List Char} (size : s.utf8ByteSize = t.utf8ByteSize)
    (h : s.toList ++ u = t.toList ++ v) : s = t ∧ u = v := by
  rcases List.append_eq_append_iff.1 h with ⟨w, ht, rfl⟩ | ⟨w, hs, rfl⟩
  · obtain ⟨rfl, rfl⟩ := eq_of_toList_append size ht
    exact ⟨rfl, rfl⟩
  · obtain ⟨rfl, rfl⟩ := eq_of_toList_append size.symm hs
    exact ⟨rfl, rfl⟩

namespace FieldValue

theorem toList_code_number (x : Float) :
    (code (.number x)).toList = 'n' :: (Nat.toDigits 10 (numberBits x) ++ [';']) := by
  simp [code]

theorem toList_code_text (s : String) :
    (code (.text s)).toList =
      's' :: (Nat.toDigits 10 s.utf8ByteSize ++ ':' :: (s.toList ++ [';'])) := by
  simp [code]

/-- Two codes at the start of one text are of the same value. -/
theorem code_append_inj {a b : FieldValue} {u v : List Char}
    (h : (code a).toList ++ u = (code b).toList ++ v) : a.same b = true ∧ u = v := by
  cases a with
  | number a =>
    cases b with
    | number b =>
      rw [toList_code_number, toList_code_number] at h
      simp only [List.cons_append, List.append_assoc, List.nil_append, List.cons.injEq,
        true_and] at h
      obtain ⟨hbits, rest⟩ := toDigits_append_inj (by decide) h
      simpa [same, rest] using numberBits_eq_iff.1 hbits
    | text b =>
      rw [toList_code_number, toList_code_text] at h
      simp at h
  | text a =>
    cases b with
    | number b =>
      rw [toList_code_number, toList_code_text] at h
      simp at h
    | text b =>
      rw [toList_code_text, toList_code_text] at h
      simp only [List.cons_append, List.append_assoc, List.nil_append, List.cons.injEq,
        true_and] at h
      obtain ⟨size, texts⟩ := toDigits_append_inj (by decide) h
      obtain ⟨hab, rest⟩ := text_append_inj size texts
      exact ⟨by simpa [same] using hab, (List.cons.inj rest).2⟩

theorem code_eq_iff {a b : FieldValue} : code a = code b ↔ a.same b = true := by
  constructor
  · intro h
    exact (code_append_inj (congrArg (·.toList ++ []) h)).1
  · intro h
    cases a with
    | number a =>
      cases b with
      | number b =>
        have hbits : numberBits a = numberBits b := by
          rw [numberBits_eq_iff]
          simpa [same] using h
        simp only [code, hbits]
      | text b => contradiction
    | text a =>
      cases b with
      | number b => contradiction
      | text b =>
        have htext : a = b := by simpa [same] using h
        rw [htext]

end FieldValue

theorem toList_codeOf_cons (value : FieldValue) (values : List FieldValue) :
    (codeOf (value :: values)).toList = value.code.toList ++ (codeOf values).toList := by
  simp [codeOf]

theorem code_ne_empty (value : FieldValue) : value.code.toList ≠ [] := by
  cases value
  · simp [FieldValue.toList_code_number]
  · simp [FieldValue.toList_code_text]

/-- The codes of two tuples agree when the tuples have the same values. -/
theorem codeOf_eq_iff {as bs : List FieldValue} :
    codeOf as = codeOf bs ↔ List.Forall₂ (fun a b => a.same b = true) as bs := by
  rw [← String.toList_inj]
  induction as generalizing bs with
  | nil =>
    cases bs with
    | nil => simp
    | cons b bs =>
      have filled := code_ne_empty b
      rw [toList_codeOf_cons]
      simp [codeOf, filled]
  | cons a as ih =>
    cases bs with
    | nil =>
      have filled := code_ne_empty a
      rw [toList_codeOf_cons]
      simp [codeOf, filled]
    | cons b bs =>
      rw [toList_codeOf_cons, toList_codeOf_cons, List.forall₂_cons, ← ih]
      constructor
      · exact FieldValue.code_append_inj
      · rintro ⟨hsame, hrest⟩
        rw [FieldValue.code_eq_iff.2 hsame, hrest]

end Codes

end CampusQuery
