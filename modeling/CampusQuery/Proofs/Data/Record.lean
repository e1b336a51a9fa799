import Mathlib.Data.List.Perm.Subperm
import CampusQuery.Data.Dataset
import CampusQuery.Query.Filter
import CampusQuery.Proofs.Except

/-!
Records of a kind. Main statements: the check of a record accepts exactly the well-formed ones, and
a well-formed record has a value for every field of its kind.
-/

namespace CampusQuery

namespace Entries

variable {α : Type u}

theorem find?_isSome_iff {name : String} {entries : Entries α} :
    (entries.find? name).isSome ↔ name ∈ entries.map (·.1) := by
  rw [← not_iff_not, Option.not_isSome_iff_eq_none, find?_eq_none]
  simp only [List.mem_map]
  grind

theorem mem_of_find? {name : String} {value : α} {entries : Entries α}
    (h : entries.find? name = some value) : (name, value) ∈ entries := by
  induction entries with
  | nil => simp at h
  | cons entry rest ih => grind [find?]

theorem find?_of_mem {name : String} {value : α} {entries : Entries α}
    (nodup : (entries.map (·.1)).Nodup) (h : (name, value) ∈ entries) :
    entries.find? name = some value := by
  induction entries with
  | nil => contradiction
  | cons entry rest ih =>
    obtain ⟨head, tail⟩ := List.nodup_cons.1 nodup
    rw [find?_cons]
    rcases List.mem_cons.1 h with rfl | h
    · rw [if_pos rfl]
    · have hne : entry.1 ≠ name := by
        rintro rfl
        exact head (List.mem_map.2 ⟨_, h, rfl⟩)
      rw [if_neg hne, ih tail h]

theorem find?_append (name : String) (front back : Entries α) :
    find? name (front ++ back) = (find? name front).or (find? name back) := by
  induction front with
  | nil => rfl
  | cons entry rest ih =>
    rw [List.cons_append, find?_cons, find?_cons, ih]
    split <;> rfl

/-- Of named items the value of an item is found if items of its name have the same value. -/
theorem find?_map_of_mem (name : β → String) (value : β → α) {items : List β} {item : β}
    (hitem : item ∈ items)
    (same : ∀ other ∈ items, name other = name item → value other = value item) :
    find? (name item) (items.map fun item => (name item, value item)) = some (value item) := by
  induction items with
  | nil => contradiction
  | cons first rest ih =>
    rw [List.map_cons, find?_cons]
    split
    · next heq => rw [same first List.mem_cons_self heq]
    · next hne =>
      rcases List.mem_cons.1 hitem with rfl | hitem
      · contradiction
      · exact ih hitem fun other hother => same other (List.mem_cons_of_mem first hother)

theorem Ascending.nodup {entries : Entries α} (h : entries.Ascending) :
    (entries.map (·.1)).Nodup := by
  rw [List.Nodup, List.pairwise_map]
  refine h.imp fun hlt heq => ?_
  rw [heq] at hlt
  exact String.lt_irrefl _ hlt

end Entries

/-- The record has exactly the fields of the kind, with values of their types. -/
structure Record.WellFormed (kind : SchemaKind) (record : Record) : Prop where
  holds : ∀ field ∈ kind.fields, ∃ value,
    record.find? field.name = some value ∧ field.fieldType.holds value = true
  declared : ∀ name, (record.find? name).isSome → (kind.field? name).isSome

theorem checkField_eq_ok {record : Record} {field : Field} :
    checkField record field = .ok () ↔ ∃ value,
      record.find? field.name = some value ∧ field.fieldType.holds value = true := by
  unfold checkField
  cases record.find? field.name with
  | none => simp
  | some value => by_cases h : field.fieldType.holds value <;> simp [h]

namespace SchemaKind

theorem nodup_names (kind : SchemaKind) : (kind.fields.map Field.name).Nodup := by
  cases kind <;> decide

theorem mem_names {kind : SchemaKind} {name : String} :
    name ∈ kind.fields.map Field.name ↔ (kind.field? name).isSome := by
  rw [SchemaKind.field?, List.find?_isSome]
  simp

end SchemaKind

namespace Record

/-- A record of all declared fields has no other one when it has as many fields as are declared. -/
theorem declared_of_size {kind : SchemaKind} {record : Record}
    (holds : ∀ name ∈ kind.fields.map Field.name, name ∈ record.names)
    (size : record.size = kind.fields.length) :
    ∀ name ∈ record.names, (kind.field? name).isSome := by
  have subperm : (kind.fields.map Field.name).Subperm record.names :=
    List.subperm_of_subset kind.nodup_names holds
  have length : record.names.length ≤ (kind.fields.map Field.name).length := by
    have names : record.names.length = record.size := List.length_map _
    have fields : (kind.fields.map Field.name).length = kind.fields.length := List.length_map _
    omega
  have perm := subperm.perm_of_length_le length
  intro name hname
  exact SchemaKind.mem_names.1 (perm.mem_iff.2 hname)

theorem mem_names {record : Record} {name : String} :
    name ∈ record.names ↔ (record.find? name).isSome :=
  Entries.find?_isSome_iff.symm

theorem WellFormed.size {kind : SchemaKind} {record : Record} (h : record.WellFormed kind) :
    record.size = kind.fields.length := by
  have perm : record.names.Perm (kind.fields.map Field.name) := by
    apply (List.perm_ext_iff_of_nodup record.ascending.nodup kind.nodup_names).2
    intro name
    constructor
    · intro hname
      exact SchemaKind.mem_names.2 (h.declared name (mem_names.1 hname))
    · intro hname
      obtain ⟨field, hfield, rfl⟩ := List.mem_map.1 hname
      obtain ⟨value, hvalue, -⟩ := h.holds field hfield
      exact mem_names.2 (by simp [hvalue])
  simpa [Dictionary.names, Dictionary.size] using perm.length_eq

end Record

theorem checkRecord_eq_ok {kind : SchemaKind} {record : Record} :
    checkRecord kind record = .ok () ↔ record.WellFormed kind := by
  unfold checkRecord
  rw [check_bind_eq_ok, forM_eq_ok]
  simp only [checkField_eq_ok]
  constructor
  · rintro ⟨holds, hrest⟩
    refine ⟨holds, fun name hname => ?_⟩
    by_cases size : record.size = kind.fields.length
    · refine Record.declared_of_size (fun other hother => ?_) size name (Record.mem_names.2 hname)
      obtain ⟨field, hfield, rfl⟩ := List.mem_map.1 hother
      obtain ⟨value, hvalue, -⟩ := holds field hfield
      exact Record.mem_names.2 (by simp [hvalue])
    · rw [if_pos size] at hrest
      split at hrest
      · contradiction
      · next hnone =>
        have := List.find?_eq_none.1 hnone name (Record.mem_names.2 hname)
        simpa [Option.isSome_iff_ne_none] using this
  · intro h
    exact ⟨h.holds, by simp [h.size]⟩

namespace Record

/-- The value of a field that the record has. -/
def cell (ref : FieldRef) (record : Record) : FieldValue :=
  (record.find? ref.field.name).getD default

def numberOf (ref : FieldRef) (record : Record) : Float :=
  ((record.cell ref).number?).getD 0.0

def tuple (fields : List FieldRef) (record : Record) : List FieldValue :=
  fields.map fun ref => record.cell ref

end Record

namespace Record.WellFormed

variable {kind : SchemaKind} {record : Record}

/-- What a well-formed record says of a field of its kind. -/
theorem valueOf_eq_ok (h : record.WellFormed kind) {ref : FieldRef}
    (hkind : ref.field.kind = kind) : ∃ value, record.find? ref.field.name = some value ∧
      ref.fieldType.holds value = true ∧ record.valueOf ref = .ok value := by
  obtain ⟨value, hvalue, holds⟩ := h.holds ref.field (SchemaKind.mem_fields.2 hkind)
  exact ⟨value, hvalue, holds, by simp [Record.valueOf, hvalue, FieldRef.fieldType, holds]⟩

theorem valueOf_eq_cell (h : record.WellFormed kind) {ref : FieldRef}
    (hkind : ref.field.kind = kind) : record.valueOf ref = .ok (record.cell ref) := by
  obtain ⟨value, hvalue, -, hvalueOf⟩ := h.valueOf_eq_ok hkind
  rw [hvalueOf, cell, hvalue, Option.getD_some]

theorem cell_eq_number (h : record.WellFormed kind) {ref : FieldRef}
    (hkind : ref.field.kind = kind) (hnumeric : ref.field.isNumeric = true) :
    record.cell ref = .number (record.numberOf ref) := by
  obtain ⟨value, hvalue, holds, -⟩ := h.valueOf_eq_ok hkind
  have htype : ref.fieldType = .numeric := by
    simpa [Field.isNumeric, FieldRef.fieldType] using hnumeric
  have hcell : record.cell ref = value := by rw [cell, hvalue, Option.getD_some]
  rw [numberOf, hcell]
  cases value with
  | number x => rfl
  | text s => simp [FieldType.holds, FieldValue.fieldType, htype] at holds

end Record.WellFormed

/-- A course section. -/
def sampleSection (avg audit : Float) (dept : String) : Record where
  entries := [("audit", .number audit), ("avg", .number avg), ("dept", .text dept),
    ("fail", .number 1), ("id", .text "110"), ("instructor", .text "holmes, r"),
    ("pass", .number 20), ("title", .text "comptn, progrmng"), ("uuid", .text "1319"),
    ("year", .number 2015)]
  ascending := List.pairwise_map.1 (by decide :
    ["audit", "avg", "dept", "fail", "id", "instructor", "pass", "title", "uuid",
      "year"].Pairwise (· < ·))

theorem sampleSection_wellFormed (avg audit : Float) (dept : String) :
    (sampleSection avg audit dept).WellFormed .courses where
  holds field hfield := by
    obtain ⟨field, -, rfl⟩ := List.mem_map.1 hfield
    cases field <;> exact ⟨_, rfl, rfl⟩
  declared name hname := by
    have declared : ∀ name ∈ ["audit", "avg", "dept", "fail", "id", "instructor", "pass", "title",
        "uuid", "year"], (SchemaKind.courses.field? name).isSome := by decide
    exact declared name (Record.mem_names.2 hname)

end CampusQuery
