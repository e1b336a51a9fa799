import CampusQuery.Proofs.Number.Extremes
import CampusQuery.Proofs.Number.Mean
import CampusQuery.Proofs.Query.Listing
import CampusQuery.Proofs.Store.Codec

/-!
Answers as JSON text. Main statement: on datasets of finite numbers every cell of an answer is a
text or a finite number, except a sum that is too large for a double, and the printed row is read as
its cells, with null in place of such a sum.
-/

namespace CampusQuery

/-- A member is printed as its name and its value are. -/
theorem Json.memberChars_congr {members others : List (String × Json)}
    (h : List.Forall₂ (fun a b => a.1 = b.1 ∧ a.2.chars = b.2.chars) members others) :
    memberChars members = memberChars others := by
  induction h with
  | nil => rfl
  | @cons a b _ _ head _ ih =>
    obtain ⟨name, value⟩ := a
    obtain ⟨name', value'⟩ := b
    obtain ⟨rfl, hvalue⟩ := head
    rw [memberChars, memberChars, hvalue, ih]

theorem Json.compact_object_congr {members others : List (String × Json)}
    (h : List.Forall₂ (fun a b => a.1 = b.1 ∧ a.2.chars = b.2.chars) members others) :
    (Json.object members).compact = (Json.object others).compact := by
  rw [compact, compact]
  cases h with
  | nil => rfl
  | @cons a b _ _ head tail =>
    obtain ⟨name, value⟩ := a
    obtain ⟨name', value'⟩ := b
    obtain ⟨rfl, hvalue⟩ := head
    rw [chars, chars, hvalue, memberChars_congr tail]

namespace FieldValue

theorem chars_toJson_of_not_isFinite {value : FieldValue} (h : ¬value.IsFinite) :
    value.toJson.chars = Json.null.chars := by
  cases value with
  | text s => exact absurd trivial h
  | number x =>
    obtain ⟨written, fraction⟩ := chars_of_not_isFinite h
    rw [toJson, fraction]
    exact written

/-- The value as its text says. -/
def printed (value : FieldValue) : Json :=
  if value.IsFinite then value.toJson else .null

theorem chars_printed (value : FieldValue) : value.printed.chars = value.toJson.chars := by
  rw [printed]
  split
  · rfl
  · next infinite => rw [chars_toJson_of_not_isFinite infinite]

theorem legible_printed (value : FieldValue) : value.printed.Legible := by
  rw [printed]
  split
  · next finite => exact legible_toJson finite
  · trivial

/-- A value that survives its text is read as an equal one. -/
theorem exists_beq_ofRaw? {value : FieldValue} (h : value.SurvivesText) :
    ∃ other, ofRaw? value.toJson.raw = some other ∧ (value == other) = true := by
  obtain ⟨other, hother, hlike⟩ := exists_ofRaw? h
  exact ⟨other, hother, hlike.beq_eq_true h.isFinite.isOrdered⟩

theorem exists_beq_nearest? {value : FieldValue} (h : value.IsFinite) :
    ∃ other, nearest? value.toJson.raw = some other ∧ (value == other) = true := by
  obtain ⟨other, hother, hlike⟩ := (exists_raw h).2.1
  exact ⟨other, hother, hlike.beq_eq_true h.isOrdered⟩

end FieldValue

namespace Row

/-- The printed row is read as an object of its cells in their order, with null for a number that is
not finite. Any other value is the nearest to what is written for it, and it is read as an equal one
if it survives its text. -/
def ReadsBack (row : Row) : Prop :=
  ∃ members, RawJson.parse? row.text = some (.object members) ∧
    List.Forall₂ (fun cell member => member.1 = some cell.1 ∧
      if cell.2.IsFinite then
        (∃ value, FieldValue.nearest? member.2 = some value ∧ (cell.2 == value) = true) ∧
          (cell.2.SurvivesText →
            ∃ value, FieldValue.ofRaw? member.2 = some value ∧ (cell.2 == value) = true)
      else member.2 = .null) row.cells members

theorem parse?_text (row : Row) : RawJson.parse? row.text =
    some (.object (row.cells.map fun cell => (some cell.1, cell.2.printed.raw))) := by
  have text : row.text =
      (Json.object (row.cells.map fun cell => (cell.1, cell.2.printed))).compact := by
    apply Json.compact_object_congr
    rw [List.forall₂_map_left_iff, List.forall₂_map_right_iff, List.forall₂_same]
    exact fun cell _ => ⟨rfl, cell.2.chars_printed.symm⟩
  have legible : (Json.object (row.cells.map fun cell => (cell.1, cell.2.printed))).Legible := by
    rw [Json.Legible, Json.legibleMembers_iff]
    intro member hmember
    obtain ⟨cell, -, rfl⟩ := List.mem_map.1 hmember
    exact cell.2.legible_printed
  rw [text, Json.parse?_compact legible, Json.raw, Json.rawMembers_eq_map, List.map_map]
  rfl

theorem readsBack (row : Row) : row.ReadsBack := by
  refine ⟨_, row.parse?_text, ?_⟩
  rw [List.forall₂_map_right_iff, List.forall₂_same]
  intro cell _
  refine ⟨rfl, ?_⟩
  rw [FieldValue.printed]
  split
  · next finite => exact ⟨FieldValue.exists_beq_nearest? finite, FieldValue.exists_beq_ofRaw?⟩
  · rfl

/-- The printed row is read as a record that has each of its values under its column. -/
theorem exists_record {row : Row} (survives : ∀ cell ∈ row.cells, cell.2.SurvivesText)
    (single : ∀ a ∈ row.cells, ∀ b ∈ row.cells, a.1 = b.1 → a = b) :
    ∃ record, (RawJson.parse? row.text).bind Record.ofRaw? = some record ∧
      ∀ cell ∈ row.cells, ∃ value, record.find? cell.1 = some value ∧ (cell.2 == value) = true := by
  obtain ⟨entries, hread, hequal⟩ : ∃ entries : Entries FieldValue,
      row.cells.mapM (fun cell => (FieldValue.ofRaw? cell.2.printed.raw).map (cell.1, ·)) =
        some entries ∧
          List.Forall₂ (fun cell entry => entry.1 = cell.1 ∧ (cell.2 == entry.2) = true)
            row.cells entries := by
    apply exists_mapM_eq_some
    intro cell hcell
    obtain ⟨value, hvalue, heq⟩ := FieldValue.exists_beq_ofRaw? (survives cell hcell)
    refine ⟨(cell.1, value), ?_, rfl, heq⟩
    rw [FieldValue.printed, if_pos (survives cell hcell).isFinite, hvalue, Option.map_some]
  refine ⟨Dictionary.ofList entries, ?_, fun cell hcell => ?_⟩
  · rw [parse?_text, Option.bind_some,
      Record.ofRaw?_object (fun value => value.printed.raw), hread, Option.map_some]
  · obtain ⟨entry, hentry, hname, -⟩ := exists_of_mem_left hequal hcell
    have found : (Entries.find? cell.1 entries.reverse).isSome := by
      rw [Entries.find?_isSome_iff, List.map_reverse, List.mem_reverse, ← hname]
      exact List.mem_map_of_mem hentry
    obtain ⟨value, hvalue⟩ := Option.isSome_iff_exists.1 found
    refine ⟨value, by rw [Dictionary.find?_ofList, hvalue], ?_⟩
    obtain ⟨other, hother, hname', hbeq⟩ :=
      exists_of_mem_right hequal (List.mem_reverse.1 (Entries.mem_of_find? hvalue))
    rwa [single cell hcell other hother hname']

end Row

namespace Record.IsFinite

variable {record : Record}

theorem cell (h : record.IsFinite) (ref : FieldRef) : (record.cell ref).IsFinite := by
  rw [Record.cell]
  cases hvalue : record.find? ref.field.name with
  | none => trivial
  | some value => exact h _ (Entries.mem_of_find? hvalue)

theorem numberOf (h : record.IsFinite) (ref : FieldRef) :
    CampusQuery.IsFinite (record.numberOf ref) := by
  have finite := h.cell ref
  rw [Record.numberOf]
  cases hcell : record.cell ref with
  | number x =>
    rw [hcell] at finite
    exact finite
  | text s =>
    change CampusQuery.IsFinite 0.0
    decide

/-- The numbers of such records are finite. -/
theorem numbers {members : List Record} (h : ∀ record ∈ members, record.IsFinite)
    (ref : FieldRef) : ∀ x ∈ members.map (Record.numberOf ref), CampusQuery.IsFinite x := by
  intro x hx
  obtain ⟨record, hrecord, rfl⟩ := List.mem_map.1 hx
  exact (h record hrecord).numberOf ref

end Record.IsFinite

namespace AggregateSpec

variable {spec : AggregateSpec} {members : List Record} {value : FieldValue}

theorem countDistinct_le (values : List FieldValue) : countDistinct values ≤ values.length := by
  rw [countDistinct, ← List.length_map FieldValue.code]
  exact Std.TreeSet.size_ofList_le

/-- An aggregate of finite numbers is finite, unless a sum grows beyond the finite numbers. -/
theorem isFinite_value? (finite : ∀ record ∈ members, record.IsFinite) (filled : members ≠ [])
    (size : members.length < 2 ^ 64) (h : spec.value? members = some value) :
    value.IsFinite ∨
      spec.op = .sum ∧ (value = .number infinity ∨ value = .number (-infinity)) := by
  have numbers := Record.IsFinite.numbers finite spec.target
  have ordered := fun x hx => isNaN_of_isFinite (numbers x hx)
  have nonempty : members.map (Record.numberOf spec.target) ≠ [] := by
    rwa [ne_eq, List.map_eq_nil_iff]
  unfold value? at h
  cases hop : spec.op with
  | count =>
    simp only [hop] at h
    cases h
    left
    have count : countDistinct (members.map (Record.cell spec.target)) < 2 ^ 64 := by
      have few := (countDistinct_le (members.map (Record.cell spec.target)))
      rw [List.length_map] at few
      exact Nat.lt_of_le_of_lt few size
    exact isFinite_doubleOfInt count (by decide)
  | max =>
    simp only [hop] at h
    cases h
    obtain ⟨-, x, hx, hbeq⟩ := foldl_larger ordered nonempty
    exact .inl (isFinite_of_beq hbeq (numbers x hx))
  | min =>
    simp only [hop] at h
    cases h
    obtain ⟨-, x, hx, hbeq⟩ := foldl_smaller ordered nonempty
    exact .inl (isFinite_of_beq hbeq (numbers x hx))
  | sum =>
    simp only [hop] at h
    cases h
    have start : (0.0 : Float).isNaN = false := by decide
    rcases finite_or_infinite (isNaN_foldl_add numbers start) with total | total
    · exact .inl total
    · exact .inr ⟨rfl, total.imp (congrArg _) (congrArg _)⟩
  | avg =>
    simp only [hop] at h
    obtain ⟨mean, hmean, rfl⟩ := Option.map_eq_some_iff.1 h
    exact .inl (isFinite_decimalMean? hmean)

end AggregateSpec

namespace QueryPlan

/-- A cell with a sum that is too large for a double. -/
def Overflows (plan : QueryPlan) (cell : String × FieldValue) : Prop :=
  ∃ spec ∈ plan.aggregates, spec.op = .sum ∧ spec.name = cell.1 ∧
    (cell.2 = .number infinity ∨ cell.2 = .number (-infinity))

/-- What a row of an answer and its text say. -/
structure Encodes (plan : QueryPlan) (row : Row) : Prop where
  finite : ∀ cell ∈ row.cells, cell.2.IsFinite ∨ plan.Overflows cell
  /-- It does not matter which of two cells of one column a reader keeps. -/
  single : ∀ a ∈ row.cells, ∀ b ∈ row.cells, a.1 = b.1 → a = b
  read : row.ReadsBack
  /-- Without a sum that is too large the text is one of a record, if its numbers survive. -/
  record : (∀ cell ∈ row.cells, ¬plan.Overflows cell) →
    (∀ cell ∈ row.cells, cell.2.IsFinite → cell.2.SurvivesText) →
    ∃ record, (RawJson.parse? row.text).bind Record.ofRaw? = some record ∧
      ∀ cell ∈ row.cells, ∃ value, record.find? cell.1 = some value ∧ (cell.2 == value) = true

variable {plan : QueryPlan} {scope : Scope} {matched : List Record}

theorem finite_answerRows (finite : ∀ record ∈ matched, record.IsFinite)
    (size : matched.length < 2 ^ 64) {row : Row} (hrow : row ∈ plan.answerRows matched) :
    ∀ cell ∈ row.cells, cell.2.IsFinite ∨ plan.Overflows cell := by
  intro cell hcell
  cases cell_of_mem_answerRows hrow hcell with
  | key name ref record hrecord => exact .inl ((finite record hrecord).cell ref)
  | aggregate spec hspec members sublist filled =>
    have members_finite : ∀ record ∈ members, record.IsFinite := fun record hrecord =>
      finite record (sublist.subset hrecord)
    cases hvalue : spec.value? members with
    | none => exact .inl trivial
    | some value =>
      exact (AggregateSpec.isFinite_value? members_finite filled
        (Nat.lt_of_le_of_lt sublist.length_le size) hvalue).imp id
          fun ⟨hop, infinite⟩ => ⟨spec, hspec, hop, rfl, infinite⟩
  | field name record hrecord entry hentry => exact .inl (finite record hrecord entry hentry)

/-- The cells of a returned row are cells of a full row, the first of their column. -/
theorem exists_answerRow {limit : Nat} {rows : List Row} (resolved : plan.Resolved scope)
    (hmatched : ∀ record ∈ matched, record.WellFormed scope.kind)
    (h : plan.format limit matched = .ok rows) {row : Row} (hrow : row ∈ rows) :
    ∃ full ∈ plan.answerRows matched, ∀ cell ∈ row.cells, full.get? cell.1 = some cell.2 := by
  obtain ⟨full, hfull, -, h⟩ := exists_fullRows h
  obtain ⟨rfl, -⟩ := eq_answerRows_of_fullRows resolved.groupFits hmatched hfull
  obtain ⟨full, hmem, projected⟩ := exists_of_mem_right (mapM_eq_ok_iff.1 h) hrow
  exact ⟨full, (sort_perm plan.sort _).mem_iff.1 hmem, get?_of_mem_project projected⟩

theorem encodes_of_format {limit : Nat} {rows : List Row} (resolved : plan.Resolved scope)
    (hmatched : ∀ record ∈ matched, record.WellFormed scope.kind)
    (finite : ∀ record ∈ matched, record.IsFinite) (size : matched.length < 2 ^ 64)
    (h : plan.format limit matched = .ok rows) {row : Row} (hrow : row ∈ rows) :
    plan.Encodes row := by
  obtain ⟨full, hfull, cells⟩ := exists_answerRow resolved hmatched h hrow
  have within : ∀ cell ∈ row.cells, cell.2.IsFinite ∨ plan.Overflows cell := fun cell hcell =>
    finite_answerRows finite size hfull cell (Entries.mem_of_find? (cells cell hcell))
  have single := Row.single_of_get? cells
  refine ⟨within, single, row.readsBack, fun fits survives => ?_⟩
  exact Row.exists_record (fun cell hcell =>
    survives cell hcell ((within cell hcell).resolve_right (fits cell hcell))) single

end QueryPlan

/-- Answers on datasets of finite numbers survive being printed and read as their numbers do, except
that a sum beyond the finite numbers is printed as null. -/
theorem Datasets.query_encodes {datasets : Datasets} {limit : Nat} {query : Json} {rows : List Row}
    (built : ∀ id dataset, datasets id = some dataset → dataset.Built)
    (finite : ∀ id dataset, datasets id = some dataset → dataset.IsFinite)
    (size : ∀ id dataset, datasets id = some dataset → dataset.records.length < 2 ^ 64)
    (h : datasets.query limit query = .ok rows) :
    ∃ plan, datasets.parse query = .ok plan ∧ ∀ row ∈ rows, plan.Encodes row := by
  obtain ⟨plan, scope, dataset, matched, hparse, resolved, hdataset, wellFormed, sublist, hrows⟩ :=
    Datasets.exists_format_of_query built h
  refine ⟨plan, hparse, fun row hrow => QueryPlan.encodes_of_format resolved ?_ ?_ ?_ hrows hrow⟩
  · exact fun record hrecord => wellFormed record (sublist.subset hrecord)
  · exact fun record hrecord => finite _ _ hdataset record (sublist.subset hrecord)
  · exact Nat.lt_of_le_of_lt sublist.length_le (size _ _ hdataset)

theorem Datasets.query_encodes_sample : ∃ plan rows,
    sampleDatasets.parse sampleGrouping = .ok plan ∧
      sampleDatasets.query 2 sampleGrouping = .ok rows ∧ rows.length = 2 ∧
        ∀ row ∈ rows, plan.Encodes row := by
  have loaded : ∀ id dataset, sampleDatasets id = some dataset →
      dataset.IsFinite ∧ dataset.records.length < 2 ^ 64 := by
    intro id dataset h
    unfold sampleDatasets at h
    split at h
    · cases h
      decide +kernel
    · contradiction
  obtain ⟨rows, hrows, hlength⟩ : ∃ rows, sampleDatasets.query 2 sampleGrouping = .ok rows ∧
      rows.length = 2 := ⟨_, rfl, rfl⟩
  obtain ⟨plan, hparse, encoded⟩ := Datasets.query_encodes sampleDatasets_built
    (fun id dataset h => (loaded id dataset h).1) (fun id dataset h => (loaded id dataset h).2)
    hrows
  exact ⟨plan, rows, hparse, hrows, hlength, encoded⟩

/-- Two sections with averages that are finite, but whose sum is not. -/
def sampleExcess : Datasets := fun id =>
  if id = "cs" then some ⟨"cs", .courses, List.replicate 2 (sampleSection 1e308 0 "math")⟩ else none

/-- The sum of the averages of each department. -/
def sampleTotals : Json :=
  .object [("FILTER", .object []),
    ("OPTIONS", .object [("COLUMNS", .array [.string "cs_dept", .string "total"])]),
    ("TRANSFORM", .object [("GROUP", .array [.string "cs_dept"]),
      ("APPLY", .array [.object [("total", .object [("SUM", .string "cs_avg")])]])])]

/-- The row of a sum that is too large is answered, but its text is not one of a record. -/
theorem Datasets.query_of_excess :
    (∀ id dataset, sampleExcess id = some dataset → dataset.Built ∧ dataset.IsFinite) ∧
      ∃ row, sampleExcess.query defaultLimit sampleTotals = .ok [row] ∧
        (∃ cell ∈ row.cells, ¬cell.2.IsFinite) ∧
          row.text = "\x7b\"cs_dept\":\"math\",\"total\":null\x7d" ∧
            ((RawJson.parse? row.text).bind Record.ofRaw?).isNone = true := by
  have loaded : ∀ id dataset, sampleExcess id = some dataset →
      dataset.Built ∧ dataset.IsFinite := by
    intro id dataset h
    unfold sampleExcess at h
    split at h
    · cases h
      refine ⟨Dataset.built_iff.2 ⟨by decide, fun record hrecord => ?_⟩, by decide +kernel⟩
      obtain rfl := List.eq_of_mem_replicate hrecord
      exact sampleSection_wellFormed _ _ _
    · contradiction
  refine ⟨loaded, _, rfl, ?_, ?_, ?_⟩
  all_goals decide +kernel

end CampusQuery
