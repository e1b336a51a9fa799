import CampusQuery.Proofs.Query.Ranking

/-!
One equality of values. Main statements: the codes of values that follow one another can be told
apart up to equality, and the comparison of values is a total order whose ties are the equal ones,
so that sorting, EQUALS, groups and COUNT take the same values for equal.
-/

namespace CampusQuery

section Codes

variable {as bs : List FieldValue}

theorem codeOf_append (as bs : List FieldValue) : codeOf (as ++ bs) = codeOf as ++ codeOf bs := by
  simp [codeOf, String.join_append]

theorem codeOf_eq_iff_beq (hbs : ∀ b ∈ bs, b.IsOrdered) :
    codeOf as = codeOf bs ↔ List.Forall₂ (fun a b => (a == b) = true) as bs := by
  rw [← beq_iff_forall₂, beq_tuple hbs, sameTuple_iff]

/-- What starts with the code of a tuple is the code of an equal tuple and of what comes after it.
The induction is on the first tuple: each of its codes ends where one of the second tuple does. -/
theorem codeOf_eq_append {rest : List Char} (h : (codeOf bs).toList = (codeOf as).toList ++ rest) :
    ∃ front back, bs = front ++ back ∧ sameTuple as front = true ∧
      rest = (codeOf back).toList := by
  induction as generalizing bs with
  | nil => exact ⟨[], bs, rfl, rfl, h.symm⟩
  | cons a as ih =>
    rw [toList_codeOf_cons, List.append_assoc] at h
    cases bs with
    | nil =>
      have filled := code_ne_empty a
      simp [codeOf, filled] at h
    | cons b bs =>
      rw [toList_codeOf_cons] at h
      obtain ⟨head, tail⟩ := FieldValue.code_append_inj h.symm
      obtain ⟨front, back, rfl, same, hrest⟩ := ih tail.symm
      refine ⟨b :: front, back, rfl, ?_, hrest⟩
      rw [sameTuple, List.isEqv_cons_cons, head]
      exact same

end Codes

/-- Codes form a prefix code up to equality. The code of a tuple tells the tuple, of whatever length
and with whatever characters in its texts; and if it begins the code of another tuple, then that
tuple begins with an equal one, and the code goes on with that of the rest. -/
theorem codes_uniquely_decodable :
    (∀ a b : FieldValue, b.IsOrdered →
      ((∃ rest, b.code = a.code ++ rest) ↔ (a == b) = true)) ∧
    ∀ as bs : List FieldValue, (∀ b ∈ bs, b.IsOrdered) →
      (codeOf as = codeOf bs ↔ List.Forall₂ (fun a b => (a == b) = true) as bs) ∧
        ∀ rest, codeOf bs = codeOf as ++ rest ↔ ∃ front back, bs = front ++ back ∧
          List.Forall₂ (fun a b => (a == b) = true) as front ∧ rest = codeOf back := by
  constructor
  · intro a b ordered
    constructor
    · rintro ⟨rest, h⟩
      have joined : a.code.toList ++ rest.toList = b.code.toList ++ [] := by
        rw [h, String.toList_append, List.append_nil]
      exact (FieldValue.same_iff_beq ordered).1 (FieldValue.code_append_inj joined).1
    · intro equal
      have code := FieldValue.code_eq_iff.2 ((FieldValue.same_iff_beq ordered).2 equal)
      exact ⟨"", by rw [code, String.append_empty]⟩
  · intro as bs ordered
    refine ⟨codeOf_eq_iff_beq ordered, fun rest => ?_⟩
    constructor
    · intro h
      obtain ⟨front, back, rfl, same, hrest⟩ := codeOf_eq_append
        ((congrArg String.toList h).trans String.toList_append)
      have first := fun b hb => ordered b (List.mem_append_left back hb)
      exact ⟨front, back, rfl, (codeOf_eq_iff_beq first).1 (sameTuple_iff.1 same),
        String.toList_inj.1 hrest⟩
    · rintro ⟨front, back, rfl, equal, rfl⟩
      have first := fun b hb => ordered b (List.mem_append_left back hb)
      rw [codeOf_append, (codeOf_eq_iff_beq first).2 equal]

/-- A text that looks like codes, and a zero of either sign in front of a text of two bytes. -/
theorem codes_uniquely_decodable_sample :
    (FieldValue.number 0.0).IsOrdered ∧
      codeOf [.text "1:a;n0;", .number 0.0, .text "é"] =
        codeOf [.text "1:a;n0;", .number (-0.0)] ++ "s2:é;" ∧
      ¬∃ rest, (FieldValue.text "ab").code = (FieldValue.text "a").code ++ rest := by
  have zero : (FieldValue.number 0.0).IsOrdered := (by decide : (0.0 : Float).isNaN = false)
  have ordered : ∀ b ∈ [FieldValue.text "1:a;n0;", .number 0.0, .text "é"], b.IsOrdered := by
    simp only [List.forall_mem_cons]
    exact ⟨trivial, zero, trivial, by simp⟩
  refine ⟨zero, ?_, ?_⟩
  · refine ((codes_uniquely_decodable.2 _ _ ordered).2 _).2
      ⟨[.text "1:a;n0;", .number 0.0], [.text "é"], rfl, ?_, by decide⟩
    exact .cons (by decide) (.cons (by decide) .nil)
  · rw [codes_uniquely_decodable.1 (.text "a") (.text "ab") trivial]
    decide

/-- A total order of the values other than NaN: numbers by their size, then texts by their bytes. -/
structure OrdersValues (compare : FieldValue → FieldValue → Ordering) : Prop where
  refl : ∀ a : FieldValue, a.IsOrdered → compare a a = .eq
  total : ∀ a b : FieldValue, a.IsOrdered → b.IsOrdered →
    (compare a b).isLE ∨ (compare b a).isLE
  trans : ∀ a b c : FieldValue, a.IsOrdered → b.IsOrdered → c.IsOrdered →
    (compare a b).isLE → (compare b c).isLE → (compare a c).isLE
  swap : ∀ a b : FieldValue, a.IsOrdered → b.IsOrdered → compare a b = (compare b a).swap
  numbers : ∀ x y : Float, compare (.number x) (.number y) = .lt ↔ x < y
  texts : ∀ s t : String, compare (.text s) (.text t) = .lt ↔ utf8 s < utf8 t
  kinds : ∀ (x : Float) (s : String), compare (.number x) (.text s) = .lt

/-- The operand that asks for this value. -/
def FieldValue.operand : FieldValue → Operand
  | .number x => .number x
  | .text s => .text s

/-- Wherever values other than NaN are held to be equal or not, `equal` is what decides. -/
structure SharesEquality (equal : FieldValue → FieldValue → Bool) : Prop where
  ties : ∀ a b : FieldValue, a.IsOrdered → b.IsOrdered →
    (a.compare b = .eq ↔ equal a b = true)
  codes : ∀ a b : FieldValue, a.IsOrdered → b.IsOrdered → (a.code = b.code ↔ equal a b = true)
  /-- Rows tie in a sort when under every key both have no cell or equal ones. -/
  rows : ∀ (spec : SortSpec) (a b : Row), a.IsOrdered → b.IsOrdered →
    (spec.compareRows a b = .eq ↔
      ∀ key ∈ spec.keys, Option.Rel (fun x y => equal x y = true) (a.get? key) (b.get? key))
  /-- EQUALS compares a value with an operand of its type. -/
  filters : ∀ a b : FieldValue, a.fieldType = b.fieldType →
    b.operand.compare? .equals a = some (equal a b)
  /-- Groups have unequal keys, and the members of a group are the records with an equal one. -/
  groups : ∀ (kind : SchemaKind) (fields : List FieldRef) (records : List Record) (limit : Nat)
    (buckets : List Bucket), (∀ ref ∈ fields, ref.field.kind = kind) →
      (∀ record ∈ records, record.WellFormed kind ∧ record.IsOrdered) →
        groupRecords limit fields records = .ok buckets →
          buckets.Pairwise (fun a b => a.key.isEqv b.key equal = false) ∧
            ∀ bucket ∈ buckets, bucket.members =
              records.filter fun record => (record.tuple fields).isEqv bucket.key equal
  counts : ∀ values : List FieldValue, (∀ value ∈ values, value.IsOrdered) →
    AggregateSpec.countDistinct values = (values.eraseDupsBy equal).length

/-- Grouping by codes is grouping by equal tuples. -/
theorem groupRecords_isEqv {kind : SchemaKind} {fields : List FieldRef} {records : List Record}
    {limit : Nat} {buckets : List Bucket} (hfields : ∀ ref ∈ fields, ref.field.kind = kind)
    (hrecords : ∀ record ∈ records, record.WellFormed kind ∧ record.IsOrdered)
    (h : groupRecords limit fields records = .ok buckets) :
    buckets.Pairwise (fun a b => a.key.isEqv b.key (· == ·) = false) ∧
      ∀ bucket ∈ buckets, bucket.members =
        records.filter fun record => (record.tuple fields).isEqv bucket.key (· == ·) := by
  rw [groupRecords_eq limit hfields fun record hrecord => (hrecords record hrecord).1] at h
  split at h
  · contradiction
  cases h
  have ordered : ∀ tuple ∈ distinctTuples (records.map (Record.tuple fields)),
      ∀ other : List FieldValue, other.isEqv tuple (· == ·) = sameTuple other tuple := by
    intro tuple htuple other
    obtain ⟨first, hfirst, rfl⟩ := List.mem_map.1 (mem_of_mem_eraseDupsBy sameTuple_equiv htuple)
    rw [← List.beq_eq_isEqv]
    exact beq_tuple ((hrecords first hfirst).2.tuple fields)
  rw [List.pairwise_map, List.forall_mem_map]
  constructor
  · have distinct : (distinctTuples (records.map (Record.tuple fields))).Pairwise
        fun a b => sameTuple a b = false := pairwise_eraseDupsBy sameTuple_equiv
    exact distinct.imp_of_mem fun _ hb hab => (ordered _ hb _).trans hab
  · intro tuple htuple
    simp only [bucketOf, ordered tuple htuple]

namespace FieldValue

theorem compare_self {a : FieldValue} (ha : a.IsOrdered) : a.compare a = .eq :=
  (compare_eq_eq_iff ha ha).2 ((same_iff_beq ha).1 (code_eq_iff.1 rfl))

theorem compare_isLE_total {a b : FieldValue} (ha : a.IsOrdered) (hb : b.IsOrdered) :
    (a.compare b).isLE ∨ (b.compare a).isLE := by
  rw [compare_swap ha hb]
  cases b.compare a <;> simp

theorem ordersValues_compare : OrdersValues compare where
  refl _ := compare_self
  total _ _ := compare_isLE_total
  trans _ _ _ := compare_isLE_trans
  swap _ _ := compare_swap
  numbers _ _ := compare_eq_lt_iff
  texts _ _ := compare_eq_lt_iff.trans lt_iff_utf8_lt
  kinds _ _ := rfl

theorem sharesEquality_beq : SharesEquality (· == ·) where
  ties _ _ := compare_eq_eq_iff
  codes _ _ _ ordered := code_eq_iff.trans (same_iff_beq ordered)
  rows _ _ _ := SortSpec.compareRows_eq_eq_iff_level
  filters a b type := by
    cases a <;> cases b <;> first | rfl | contradiction
  groups _ _ _ _ _ := groupRecords_isEqv
  counts values ordered := by
    rw [countDistinct_eq, ← eraseDups_eq_same ordered]
    rfl

end FieldValue

/-- The comparison of values is a total order if none of them is NaN. Its ties are the equal values,
which are those of one code, and they are what sorting, EQUALS, groups and COUNT take for equal. -/
theorem values_totally_ordered :
    OrdersValues FieldValue.compare ∧ SharesEquality (· == ·) :=
  ⟨FieldValue.ordersValues_compare, FieldValue.sharesEquality_beq⟩

end CampusQuery
