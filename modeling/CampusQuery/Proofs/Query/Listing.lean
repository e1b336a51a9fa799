import CampusQuery.Proofs.Query.Grouping
import CampusQuery.Proofs.Query.Invariant
import CampusQuery.Proofs.Query.Order
import CampusQuery.Proofs.Query.Soundness

/-!
What ungrouped queries answer. Main statement: the rows show the records that the filter accepts,
each of them once, in the order that ORDER asks for and else in that of the dataset.
-/

namespace CampusQuery

/-- Cells that were looked up in one row are the same if they have one column. -/
theorem Row.single_of_get? {row full : Row}
    (h : ∀ cell ∈ row.cells, full.get? cell.1 = some cell.2) :
    ∀ a ∈ row.cells, ∀ b ∈ row.cells, a.1 = b.1 → a = b := by
  intro a ha b hb heq
  have value := h b hb
  rw [← heq, h a ha] at value
  exact Prod.ext heq (Option.some.inj value)

namespace QueryPlan

/-- Whether the filter lets the record through. -/
def accepts (plan : QueryPlan) (record : Record) : Bool :=
  match plan.filter with
  | none => true
  | some node => node.eval record matches .ok true

/-- The row has the columns of the plan, with the record's values of the fields they name. -/
def Shows (plan : QueryPlan) (record : Record) (row : Row) : Prop :=
  List.Forall₂ (fun column cell => cell.1 = column ∧ ∃ field : Field,
    column = qualify plan.datasetId field.name ∧ record.find? field.name = some cell.2)
    plan.columns row.cells

/-- The rows show the records in the order of their places. -/
structure Answers (plan : QueryPlan) (records : List Record) (places : List (Fin records.length))
    (rows : List Row) : Prop where
  /-- Each record has one row. -/
  perm : places.Perm (List.finRange records.length)
  shown : List.Forall₂ (fun place row => plan.Shows records[place] row) places rows
  /-- Of two rows the first comes before the second, or they tie and stand as their records do. -/
  sorted : (places.zip rows).Pairwise fun a b =>
    plan.sort.Before a.2 b.2 ∨ a.2.Ties plan.sort.keys b.2 ∧ a.1 < b.1
  unsorted : plan.sort.keys = [] → places = List.finRange records.length

variable {plan : QueryPlan}

theorem matching_cons (filter : Option FilterNode) (record : Record) (records : List Record) :
    matching filter (record :: records) =
      (filter.elim (.ok true) (FilterNode.eval record) >>= fun keep =>
        (matching filter records).map fun others => if keep then record :: others else others) := by
  cases filter with
  | none =>
    simp only [matching]
    cases matching none records <;> rfl
  | some node =>
    simp only [matching, Option.elim_some]
    cases node.eval record <;> cases matching (some node) records <;> rfl

/-- A scan that gives records gives those that the filter accepts. -/
theorem eq_filter_of_matching {records matched : List Record}
    (h : matching plan.filter records = .ok matched) : matched = records.filter plan.accepts := by
  induction records generalizing matched with
  | nil =>
    cases h
    rfl
  | cons record records ih =>
    rw [matching_cons] at h
    obtain ⟨keep, hkeep, h⟩ := bind_eq_ok.1 h
    obtain ⟨others, hothers, rfl⟩ := map_eq_ok.1 h
    have judged : plan.accepts record = keep := by
      unfold accepts
      cases hfilter : plan.filter with
      | none =>
        rw [hfilter] at hkeep
        exact Except.ok.inj hkeep
      | some node =>
        rw [hfilter, Option.elim_some] at hkeep
        simp only [hkeep]
        cases keep <;> rfl
    rw [List.filter_cons, judged, ← ih hothers]

theorem checkSortKeys_eq_ok (h : plan.checkSortKeys = .ok ()) :
    ∀ key ∈ plan.sort.keys, key ∈ plan.columns := by
  intro key hkey
  by_contra unlisted
  rcases plan.checkSortKeys_cases with ⟨other, -, failed⟩ | ⟨keys, -⟩
  · rw [failed] at h
    contradiction
  · exact keys key ⟨hkey, unlisted⟩

/-- The steps of an answer: all rows are made, put in order and cut to the columns. -/
theorem exists_fullRows {limit : Nat} {records : List Record} {rows : List Row}
    (h : plan.format limit records = .ok rows) :
    ∃ full, plan.fullRows limit records = .ok full ∧ plan.checkSortKeys = .ok () ∧
      (plan.sort.sort full).mapM plan.project = .ok rows := by
  unfold format at h
  obtain ⟨-, h⟩ := check_bind_eq_ok.1 h
  obtain ⟨full, hfull, h⟩ := bind_eq_ok.1 h
  obtain ⟨-, h⟩ := check_bind_eq_ok.1 h
  obtain ⟨checked, h⟩ := check_bind_eq_ok.1 h
  exact ⟨full, hfull, checked, h⟩

theorem format_eq_ok {limit : Nat} {records : List Record} {rows : List Row}
    (ungrouped : plan.isGrouped = false) (h : plan.format limit records = .ok rows) :
    (∀ key ∈ plan.sort.keys, key ∈ plan.columns) ∧
      (plan.sort.sort (records.map plan.qualifyRecord)).mapM plan.project = .ok rows := by
  obtain ⟨full, hfull, checked, h⟩ := exists_fullRows h
  unfold fullRows at hfull
  rw [ungrouped, if_neg Bool.false_ne_true] at hfull
  obtain ⟨-, hfull⟩ := check_bind_eq_ok.1 hfull
  cases hfull
  exact ⟨checkSortKeys_eq_ok checked, h⟩

/-- A projected row has the row's value of every column. -/
theorem project_eq_ok_iff {row cut : Row} : plan.project row = .ok cut ↔
    List.Forall₂ (fun column cell => cell.1 = column ∧ row.get? column = some cell.2)
      plan.columns cut.cells := by
  unfold project
  rw [bind_eq_ok]
  simp only [mapM_eq_ok_iff]
  constructor
  · rintro ⟨cells, hcells, h⟩
    cases h
    refine hcells.imp fun column cell hcell => ?_
    split at hcell
    · next value hvalue =>
      cases hcell
      exact ⟨rfl, hvalue⟩
    · contradiction
  · intro h
    refine ⟨cut.cells, h.imp fun column cell hcell => ?_, rfl⟩
    rw [hcell.2, ← hcell.1]

theorem get?_of_mem_project {row cut : Row} (h : plan.project row = .ok cut) :
    ∀ cell ∈ cut.cells, row.get? cell.1 = some cell.2 := by
  intro cell hcell
  obtain ⟨column, -, hname, hvalue⟩ := exists_of_mem_right (project_eq_ok_iff.1 h) hcell
  rw [hname, hvalue]

theorem get?_of_project {row cut : Row} (h : plan.project row = .ok cut) {column : String}
    (hcolumn : column ∈ plan.columns) : cut.get? column = row.get? column := by
  have cells := project_eq_ok_iff.1 h
  change Entries.find? column cut.cells = _
  generalize plan.columns = columns, cut.cells = shown at cells hcolumn
  induction cells with
  | nil => contradiction
  | @cons first cell _ _ head _ ih =>
    rw [Entries.find?_cons, head.1]
    split
    · next heq => rw [← heq, head.2]
    · next hne =>
      rcases List.mem_cons.1 hcolumn with heq | hcolumn
      · exact absurd heq.symm hne
      · exact ih hcolumn

end QueryPlan

/-- A sort puts each of the rows at one place; rows that tie keep their order. -/
theorem SortSpec.exists_places {n : Nat} (spec : SortSpec) {row : Fin n → Row}
    (ordered : ∀ i key value, (row i).get? key = some value → value.IsOrdered) :
    ∃ places : List (Fin n), places.Perm (List.finRange n) ∧
      spec.sort ((List.finRange n).map row) = places.map row ∧
        places.Pairwise (Precedes (fun i j => spec.compareRows (row i) (row j)) (· < ·)) ∧
          (spec.keys = [] → places = List.finRange n) := by
  have inOrder := List.pairwise_lt_finRange n
  unfold sort
  by_cases unsorted : spec.keys.isEmpty = true
  · refine ⟨List.finRange n, .refl _, if_pos unsorted, ?_, fun _ => rfl⟩
    have keys := List.isEmpty_iff.1 unsorted
    refine inOrder.imp fun hlt => .inr ⟨?_, hlt⟩
    unfold compareRows
    rw [keys]
    cases spec.direction <;> rfl
  · have trans := transCmp_compareRows ordered spec
    refine ⟨stableSort (fun i j => spec.compareRows (row i) (row j)) (List.finRange n),
      stableSort_perm _ _, ?_, pairwise_stableSort inOrder,
      fun keys => absurd (List.isEmpty_iff.2 keys) unsorted⟩
    rw [if_neg unsorted]
    have mapped : (stableSort (fun i j => spec.compareRows (row i) (row j)) (List.finRange n)).map
        row = stableSort spec.compareRows ((List.finRange n).map row) := by
      apply map_stableSort
      intro i j
      rfl
    exact mapped.symm

namespace QueryPlan

variable {plan : QueryPlan}

theorem isOrdered_qualifyRecord {record : Record} (h : record.IsOrdered) {key : String}
    {value : FieldValue} (hvalue : (plan.qualifyRecord record).get? key = some value) :
    value.IsOrdered := by
  obtain ⟨entry, hentry, heq⟩ := List.mem_map.1 (Entries.mem_of_find? hvalue)
  cases heq
  exact h entry.1 entry.2 (Entries.find?_of_mem record.ascending.nodup hentry)

/-- The columns of an ungrouped plan are keys of its dataset. -/
theorem shows_of_project {record : Record} {row : Row}
    (keyed : ∀ column ∈ plan.columns, ∃ field : Field,
      column = qualify plan.datasetId field.name)
    (h : plan.project (plan.qualifyRecord record) = .ok row) : plan.Shows record row := by
  have cells := project_eq_ok_iff.1 h
  unfold Shows
  generalize plan.columns = columns, row.cells = shown at cells keyed
  induction cells with
  | nil => exact .nil
  | cons head _ ih =>
    rw [List.forall_mem_cons] at keyed
    obtain ⟨field, rfl⟩ := keyed.1
    refine .cons ⟨head.1, field, rfl, ?_⟩ (ih keyed.2)
    rw [← get?_qualifyRecord, head.2]

theorem format_answers {limit : Nat} {records : List Record} {rows : List Row}
    (ungrouped : plan.isGrouped = false)
    (keyed : ∀ column ∈ plan.columns, ∃ field : Field,
      column = qualify plan.datasetId field.name)
    (ordered : ∀ record ∈ records, record.IsOrdered)
    (h : plan.format limit records = .ok rows) : ∃ places, plan.Answers records places rows := by
  obtain ⟨listed, projected⟩ := format_eq_ok ungrouped h
  -- Places are sorted in place of rows, as equal rows of different records must stay apart.
  let row (place : Fin records.length) : Row := plan.qualifyRecord records[place]
  have rowOrdered : ∀ place key value, (row place).get? key = some value → value.IsOrdered :=
    fun place key value => isOrdered_qualifyRecord (ordered _ (List.getElem_mem _))
  have full : records.map plan.qualifyRecord = (List.finRange records.length).map row := by
    rw [← List.ofFn_eq_map]
    exact (List.ofFn_getElem_eq_map records plan.qualifyRecord).symm
  obtain ⟨places, perm, hsort, sorted, unsorted⟩ := plan.sort.exists_places rowOrdered
  rw [full, hsort, mapM_eq_ok_iff, List.forall₂_map_left_iff] at projected
  have cells : ∀ pair ∈ places.zip rows, ∀ key ∈ plan.sort.keys,
      pair.2.get? key = (row pair.1).get? key := fun pair hpair key hkey =>
    get?_of_project ((List.forall₂_iff_zip.1 projected).2 hpair) (listed key hkey)
  have filled : ∀ pair ∈ places.zip rows, pair.2.Keyed plan.sort.keys := by
    intro pair hpair key hkey
    have cut := (List.forall₂_iff_zip.1 projected).2 hpair
    obtain ⟨cell, -, -, hcell⟩ := exists_of_mem_left (project_eq_ok_iff.1 cut) (listed key hkey)
    exact ⟨cell.2, by rw [cells pair hpair key hkey, hcell], rowOrdered _ _ _ hcell⟩
  refine ⟨places, perm, projected.imp fun place cut => shows_of_project keyed, ?_, unsorted⟩
  -- The sort compared full rows; the returned rows have the same values under the sort keys.
  have numbered : (places.zip rows).map Prod.fst = places :=
    List.map_fst_zip projected.length_eq.le
  rw [← numbered, List.pairwise_map] at sorted
  refine sorted.imp_of_mem fun {a b} ha hb hab => ?_
  have compared : plan.sort.compareRows (row a.1) (row b.1) = plan.sort.compareRows a.2 b.2 :=
    (SortSpec.compareRows_of_get? (cells a ha) (cells b hb)).symm
  rw [Precedes, compared, SortSpec.compareRows_eq_lt_iff (filled a ha) (filled b hb),
    SortSpec.compareRows_eq_eq_iff (filled a ha) (filled b hb)] at hab
  exact hab

end QueryPlan

/-- An ungrouped query looks at every record of its dataset, and its rows show the records that the
filter accepts: without ORDER as they stand in the dataset, and else sorted by the rows' own values,
with ties as they stand in the dataset. -/
theorem Datasets.ungrouped_answers {datasets : Datasets} {query : Json} {plan : QueryPlan}
    {dataset : Dataset} {limit : Nat} {result : ExecutionResult}
    (hparse : datasets.parse query = .ok plan) (ungrouped : query.at? ["TRANSFORM"] = none)
    (hdataset : datasets plan.datasetId = some dataset)
    (ordered : ∀ record ∈ dataset.records, record.IsOrdered)
    (hresult : plan.execute datasets limit = .ok result) :
    plan.Lists query ∧ result.scanned = dataset.records.length ∧
      result.matched = (dataset.records.filter plan.accepts).length ∧
        ∃ places, plan.Answers (dataset.records.filter plan.accepts) places result.rows ∧
          (query.at? ["OPTIONS", "ORDER"] = none →
            places = List.finRange (dataset.records.filter plan.accepts).length) := by
  obtain ⟨scope, -, plans⟩ := QueryPlan.ofJson_iff.1 hparse
  have lists := plans.lists
  have plain : plan.isGrouped = false := by
    rw [← Bool.not_eq_true, plans.isGrouped_iff, ungrouped]
    simp
  unfold QueryPlan.execute at hresult
  rw [hdataset] at hresult
  obtain ⟨matched, hmatched, hresult⟩ := bind_eq_ok.1 hresult
  obtain ⟨rows, hrows, hresult⟩ := bind_eq_ok.1 hresult
  cases hresult
  obtain rfl := QueryPlan.eq_filter_of_matching hmatched
  obtain ⟨places, answers⟩ := QueryPlan.format_answers plain (plans.keyed plain)
    (fun record hrecord => ordered record (List.mem_filter.1 hrecord).1) hrows
  exact ⟨lists, rfl, rfl, places, answers, fun hnone => answers.unsorted (lists.unordered hnone)⟩

/-- The better sections, from the best down. -/
def sampleListing : Json :=
  .object [("FILTER", .object [("GREATER_THAN", .object [("cs_avg", .number (.integer 65))])]),
    ("OPTIONS", .object [("COLUMNS", .array [.string "cs_avg", .string "cs_dept"]),
      ("ORDER", .object [("dir", .string "DESCENDING"), ("keys", .array [.string "cs_avg"])])])]

theorem Datasets.ungrouped_answers_sample : ∃ plan result,
    sampleDatasets.parse sampleListing = .ok plan ∧
      plan.execute sampleDatasets defaultLimit = .ok result ∧
        ∃ places, plan.Answers (sampleSections.filter plan.accepts) places result.rows := by
  obtain ⟨plan, result, hparse, hdataset, hresult⟩ : ∃ plan result,
      sampleDatasets.parse sampleListing = .ok plan ∧
        sampleDatasets plan.datasetId = some ⟨"cs", .courses, sampleSections⟩ ∧
          plan.execute sampleDatasets defaultLimit = .ok result := ⟨_, _, rfl, rfl, rfl⟩
  obtain ⟨-, -, -, places, answers, -⟩ :=
    Datasets.ungrouped_answers hparse rfl hdataset sampleSections_ordered hresult
  exact ⟨plan, result, hparse, hresult, places, answers⟩

end CampusQuery
