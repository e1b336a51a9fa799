import CampusQuery.Proofs.Data.Dataset
import CampusQuery.Proofs.Data.Lists
import CampusQuery.Proofs.Data.Value
import CampusQuery.Proofs.Number.Zero

/-!
Data up to the sign of zeros. Main statements: values, records and datasets that are alike have the
same types, codes, JSON texts and order, pass the same checks and, without NaN, are equal; and what
is equal is alike.
-/

namespace CampusQuery

namespace FieldValue

/-- The same value, or both the number zero. -/
def Alike : FieldValue → FieldValue → Prop
  | .number a, .number b => CampusQuery.Alike a b
  | .text a, .text b => a = b
  | _, _ => False

namespace Alike

variable {a b c d : FieldValue}

theorem refl (a : FieldValue) : a.Alike a := by
  cases a with
  | number x => exact CampusQuery.Alike.refl x
  | text s => rfl

theorem symm (h : a.Alike b) : b.Alike a := by
  cases a <;> cases b
  case number.number x y => exact CampusQuery.Alike.symm h
  case text.text s t => exact Eq.symm h
  all_goals exact h.elim

theorem trans (hab : a.Alike b) (hbc : b.Alike c) : a.Alike c := by
  cases a <;> cases b <;> first | exact hab.elim | skip
  all_goals cases c <;> first | exact hbc.elim | skip
  · exact CampusQuery.Alike.trans hab hbc
  · exact Eq.trans hab hbc

theorem fieldType_eq (h : a.Alike b) : a.fieldType = b.fieldType := by
  cases a <;> cases b <;> first | rfl | exact h.elim

theorem holds_eq (h : a.Alike b) (type : FieldType) : type.holds a = type.holds b := by
  rw [FieldType.holds, FieldType.holds, h.fieldType_eq]

theorem same (h : a.Alike b) : a.same b = true := by
  cases a <;> cases b
  case number.number x y =>
    rcases h with rfl | ⟨hx, hy⟩
    · simp [FieldValue.same]
    · have hbeq : (x == y) = true :=
        beq_iff.2 ⟨isNaN_eq_false_iff.2 (by omega), .inr ⟨hx, hy⟩⟩
      simp [FieldValue.same, hbeq]
  case text.text s t =>
    obtain rfl : s = t := h
    simp [FieldValue.same]
  all_goals exact h.elim

theorem code_eq (h : a.Alike b) : a.code = b.code :=
  code_eq_iff.2 h.same

theorem toJson_eq (h : a.Alike b) : a.toJson = b.toJson := by
  cases a <;> cases b
  case number.number x y => exact CampusQuery.Alike.toJson_eq h
  case text.text s t =>
    obtain rfl : s = t := h
    rfl
  all_goals exact h.elim

theorem compare_eq (hab : a.Alike b) (hcd : c.Alike d) : a.compare c = b.compare d := by
  cases a <;> cases b <;> first | exact hab.elim | skip
  all_goals cases c <;> cases d <;> first | exact hcd.elim | skip
  · exact CampusQuery.Alike.compareNumbers_eq hab hcd
  · rfl
  · rfl
  · cases hab
    cases hcd
    rfl

theorem beq_eq_true (h : a.Alike b) (ordered : a.IsOrdered) : (a == b) = true := by
  cases a <;> cases b
  case number.number x y =>
    rcases h with rfl | ⟨hx, hy⟩
    · exact beq_iff.2 ⟨ordered, .inl rfl⟩
    · exact beq_iff.2 ⟨ordered, .inr ⟨hx, hy⟩⟩
  case text.text s t =>
    cases h
    simp [BEq.beq, beq]
  all_goals exact h.elim

end Alike

theorem alike_of_same {a b : FieldValue} (h : a.same b = true) : a.Alike b := by
  cases a with
  | number x =>
    cases b with
    | number y =>
      simp only [same, Bool.or_eq_true, decide_eq_true_eq] at h
      rcases h with h | rfl
      · exact CampusQuery.Alike.of_beq h
      · exact CampusQuery.Alike.refl x
    | text t => contradiction
  | text s =>
    cases b with
    | number y => contradiction
    | text t => simpa [same, Alike] using h

theorem alike_of_beq {a b : FieldValue} (h : (a == b) = true) : a.Alike b := by
  cases a <;> cases b
  case number.number x y => exact CampusQuery.Alike.of_beq h
  case text.text s t => exact eq_of_beq (α := String) h
  all_goals contradiction

end FieldValue

/-- The same names with values that are alike. -/
def Entries.Alike (xs ys : Entries FieldValue) : Prop :=
  List.Forall₂ (fun a b => a.1 = b.1 ∧ a.2.Alike b.2) xs ys

namespace Entries.Alike

variable {xs ys : Entries FieldValue}

theorem symm (h : Entries.Alike xs ys) : Entries.Alike ys xs :=
  h.flip.imp fun _ _ same => ⟨same.1.symm, same.2.symm⟩

theorem trans {zs : Entries FieldValue} (h : Entries.Alike xs ys) (h' : Entries.Alike ys zs) :
    Entries.Alike xs zs :=
  forall₂_trans h h' fun _ _ _ same same' => ⟨same.1.trans same'.1, same.2.trans same'.2⟩

theorem find?_rel (h : Entries.Alike xs ys) (name : String) :
    Option.Rel FieldValue.Alike (xs.find? name) (ys.find? name) := by
  induction h with
  | nil => exact .none
  | @cons a b _ _ head _ ih =>
    obtain ⟨key, value⟩ := a
    obtain ⟨key', value'⟩ := b
    obtain ⟨rfl, hvalue⟩ := head
    rw [find?_cons, find?_cons]
    split
    · exact .some hvalue
    · exact ih

theorem names_eq (h : Entries.Alike xs ys) : xs.map (·.1) = ys.map (·.1) := by
  induction h with
  | nil => rfl
  | cons head _ ih => rw [List.map_cons, List.map_cons, head.1, ih]

theorem toJson_eq (h : Entries.Alike xs ys) :
    (xs.map fun entry => (entry.1, entry.2.toJson)) =
      ys.map fun entry => (entry.1, entry.2.toJson) := by
  induction h with
  | nil => rfl
  | cons head _ ih => rw [List.map_cons, List.map_cons, head.1, head.2.toJson_eq, ih]

theorem beq_eq_true (h : Entries.Alike xs ys) (ordered : ∀ entry ∈ xs, entry.2.IsOrdered) :
    (xs == ys) = true := by
  refine beq_iff_forall₂.2 (forall₂_imp_of_mem h fun entry hentry _ _ same => ?_)
  exact Bool.and_eq_true_iff.2
    ⟨beq_iff_eq.2 same.1, same.2.beq_eq_true (ordered entry hentry)⟩

end Entries.Alike

theorem Entries.alike_of_beq {xs ys : Entries FieldValue} (h : (xs == ys) = true) :
    Entries.Alike xs ys := by
  refine (beq_iff_forall₂.1 h).imp fun _ _ same => ?_
  obtain ⟨names, values⟩ := Bool.and_eq_true_iff.1 same
  exact ⟨beq_iff_eq.1 names, FieldValue.alike_of_beq values⟩

/-- The same fields with values that are alike. -/
def Record.Alike (a b : Record) : Prop :=
  Entries.Alike a.entries b.entries

namespace Record.Alike

variable {a b : Record}

theorem find?_rel (h : a.Alike b) (name : String) :
    Option.Rel FieldValue.Alike (a.find? name) (b.find? name) :=
  Entries.Alike.find?_rel h name

theorem cell (h : a.Alike b) (ref : FieldRef) : (a.cell ref).Alike (b.cell ref) := by
  rw [Record.cell, Record.cell]
  rcases rel_cases (h.find?_rel ref.field.name) with ⟨ha, hb⟩ | ⟨x, y, ha, hb, hlike⟩
  · rw [ha, hb]
    exact .refl _
  · rw [ha, hb]
    exact hlike

theorem numberOf (h : a.Alike b) (ref : FieldRef) :
    CampusQuery.Alike (a.numberOf ref) (b.numberOf ref) := by
  have hcell := h.cell ref
  rw [Record.numberOf, Record.numberOf]
  cases hx : a.cell ref <;> cases hy : b.cell ref <;> rw [hx, hy] at hcell
  · exact hcell
  · exact hcell.elim
  · exact hcell.elim
  · exact .refl _

theorem tuple (h : a.Alike b) (fields : List FieldRef) :
    List.Forall₂ FieldValue.Alike (a.tuple fields) (b.tuple fields) := by
  rw [Record.tuple, Record.tuple, List.forall₂_map_left_iff, List.forall₂_map_right_iff,
    List.forall₂_same]
  exact fun ref _ => h.cell ref

theorem wellFormed {kind : SchemaKind} (h : a.Alike b) (ha : a.WellFormed kind) :
    b.WellFormed kind where
  holds field hfield := by
    obtain ⟨value, hvalue, holds⟩ := ha.holds field hfield
    rcases rel_cases (h.find?_rel field.name) with ⟨hnone, -⟩ | ⟨x, other, hx, hother, hlike⟩
    · rw [hvalue] at hnone
      contradiction
    · obtain rfl := Option.some.inj (hvalue.symm.trans hx)
      exact ⟨other, hother, by rw [← hlike.holds_eq, holds]⟩
  declared name hname := by
    apply ha.declared name
    rcases rel_cases (h.find?_rel name) with ⟨-, hnone⟩ | ⟨value, other, hvalue, -, -⟩
    · rw [hnone] at hname
      contradiction
    · rw [hvalue]
      rfl

end Record.Alike

namespace Dataset

/-- The same id and kind with records that are alike. -/
structure Alike (d e : Dataset) : Prop where
  id : d.id = e.id
  kind : d.kind = e.kind
  records : List.Forall₂ Record.Alike d.records e.records

/-- Equal ids, kinds and records; values compare as they do in filters. -/
def equal (d e : Dataset) : Bool :=
  d.id = e.id && d.kind = e.kind && d.records.map (·.entries) == e.records.map (·.entries)

namespace Alike

variable {d e : Dataset}

theorem refl (d : Dataset) : d.Alike d where
  id := rfl
  kind := rfl
  records := List.forall₂_same.2 fun _ _ => List.forall₂_same.2 fun entry _ =>
    ⟨rfl, FieldValue.Alike.refl entry.2⟩

theorem symm (h : d.Alike e) : e.Alike d where
  id := h.id.symm
  kind := h.kind.symm
  records := h.records.flip.imp fun _ _ => Entries.Alike.symm

theorem trans {f : Dataset} (h : d.Alike e) (h' : e.Alike f) : d.Alike f where
  id := h.id.trans h'.id
  kind := h.kind.trans h'.kind
  records := forall₂_trans h.records h'.records fun _ _ _ => Entries.Alike.trans

theorem summary_eq (h : d.Alike e) : d.summary = e.summary := by
  rw [summary, summary, h.id, h.kind, h.records.length_eq]

theorem built (h : d.Alike e) (hd : d.Built) : e.Built := by
  obtain ⟨valid, wellFormed⟩ := built_iff.1 hd
  refine built_iff.2 ⟨h.id ▸ valid, fun record hrecord => ?_⟩
  obtain ⟨other, hother, hlike⟩ := exists_of_mem_right h.records hrecord
  exact h.kind ▸ hlike.wellFormed (wellFormed other hother)

/-- Datasets that are alike are equal if no number is NaN. -/
theorem equal_eq_true (h : d.Alike e)
    (ordered : ∀ record ∈ d.records, ∀ entry ∈ record.entries, entry.2.IsOrdered) :
    d.equal e = true := by
  have records : (d.records.map (·.entries) == e.records.map (·.entries)) = true := by
    rw [beq_iff_forall₂, List.forall₂_map_left_iff, List.forall₂_map_right_iff]
    exact forall₂_imp_of_mem h.records fun record hrecord _ _ same =>
      Entries.Alike.beq_eq_true same (ordered record hrecord)
  simp [equal, h.id, h.kind, records]

end Alike

theorem alike_of_equal {d e : Dataset} (h : d.equal e = true) : d.Alike e := by
  simp only [equal, Bool.and_eq_true, decide_eq_true_eq] at h
  obtain ⟨⟨id, kind⟩, records⟩ := h
  rw [beq_iff_forall₂, List.forall₂_map_left_iff, List.forall₂_map_right_iff] at records
  exact ⟨id, kind, records.imp fun _ _ => Entries.alike_of_beq⟩

end Dataset

end CampusQuery
