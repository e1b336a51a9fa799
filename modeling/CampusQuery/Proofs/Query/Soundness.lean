import CampusQuery.Proofs.Data.Dataset
import CampusQuery.Proofs.Data.Sorting
import CampusQuery.Proofs.Query.Grouping
import CampusQuery.Proofs.Query.Rejection
import CampusQuery.Proofs.Query.Selection

/-!
How plans that were read from a document end. Main statement: such a plan fails for one of four
reasons, of which the first that applies is the answer, and else it gives rows.
-/

namespace CampusQuery

theorem AggregateSpec.value?_eq_none_iff {spec : AggregateSpec} {members : List Record} :
    spec.value? members = none ↔
      spec.op = .avg ∧ decimalMean? (members.map (Record.numberOf spec.target)) = none := by
  unfold AggregateSpec.value?
  cases spec.op <;> simp

namespace QueryPlan

/-- A column that a grouped query does not make. -/
structure ForeignColumn (plan : QueryPlan) (column : String) : Prop where
  grouped : plan.isGrouped = true
  listed : column ∈ plan.columns
  notKey : ∀ ref ∈ plan.group, ref.key ≠ column
  notName : ∀ spec ∈ plan.aggregates, spec.name ≠ column

/-- How many rows the matched records come to. -/
def rowCount (plan : QueryPlan) (matched : List Record) : Nat :=
  if plan.isGrouped then (plan.groupTuples matched).length else matched.length

/-- An average over a group that is out of range. -/
structure LacksMean (plan : QueryPlan) (matched : List Record) (spec : AggregateSpec) : Prop where
  grouped : plan.isGrouped = true
  listed : spec ∈ plan.aggregates
  average : spec.op = .avg
  missing : ∃ tuple ∈ plan.groupTuples matched,
    decimalMean? ((plan.groupMembers matched tuple).map (Record.numberOf spec.target)) = none

/-- A sort key that is no column. -/
structure UnlistedKey (plan : QueryPlan) (key : String) : Prop where
  listed : key ∈ plan.sort.keys
  notColumn : key ∉ plan.columns

/-- How a plan ends on the records that passed its filter: the first reason to fail counts. -/
inductive Ends (plan : QueryPlan) (limit : Nat) (matched : List Record) :
    QueryResult ExecutionResult → Prop where
  | ungroupedColumn (column : String) (h : plan.ForeignColumn column) :
    Ends plan limit matched (.error (.ungroupedColumn column))
  | resultTooLarge (columns : ∀ column, ¬plan.ForeignColumn column)
    (h : limit < plan.rowCount matched) : Ends plan limit matched (.error (.resultTooLarge limit))
  | meanOutOfRange (columns : ∀ column, ¬plan.ForeignColumn column)
    (size : plan.rowCount matched ≤ limit) (spec : AggregateSpec)
    (h : plan.LacksMean matched spec) : Ends plan limit matched (.error (.meanOutOfRange spec))
  | unlistedOrderKey (columns : ∀ column, ¬plan.ForeignColumn column)
    (size : plan.rowCount matched ≤ limit) (means : ∀ spec, ¬plan.LacksMean matched spec)
    (key : String) (h : plan.UnlistedKey key) :
    Ends plan limit matched (.error (.unlistedOrderKey key))
  | answer (columns : ∀ column, ¬plan.ForeignColumn column)
    (size : plan.rowCount matched ≤ limit) (means : ∀ spec, ¬plan.LacksMean matched spec)
    (keys : ∀ key, ¬plan.UnlistedKey key) (result : ExecutionResult)
    (count : result.rows.length = plan.rowCount matched) : Ends plan limit matched (.ok result)

variable {plan : QueryPlan} {scope : Scope} {limit : Nat} {matched : List Record}

theorem isGroupColumn_eq_false_iff {column : String} : plan.isGroupColumn column = false ↔
    (∀ ref ∈ plan.group, ref.key ≠ column) ∧ ∀ spec ∈ plan.aggregates, spec.name ≠ column := by
  simp [isGroupColumn]

theorem checkColumns_cases (plan : QueryPlan) :
    (∃ column, plan.ForeignColumn column ∧ plan.checkColumns = .error (.ungroupedColumn column)) ∨
      (∀ column, ¬plan.ForeignColumn column) ∧ plan.checkColumns = .ok () := by
  unfold checkColumns
  by_cases grouped : plan.isGrouped = true
  · rw [if_pos grouped]
    cases hfind : plan.columns.find? fun column => !plan.isGroupColumn column with
    | some column =>
      obtain ⟨notKey, notName⟩ :=
        isGroupColumn_eq_false_iff.1 (by simpa using List.find?_some hfind)
      exact .inl ⟨column, ⟨grouped, List.mem_of_find?_eq_some hfind, notKey, notName⟩, rfl⟩
    | none =>
      refine .inr ⟨fun column h => ?_, rfl⟩
      have inside := List.find?_eq_none.1 hfind column h.listed
      rw [isGroupColumn_eq_false_iff.2 ⟨h.notKey, h.notName⟩] at inside
      exact inside rfl
  · exact .inr ⟨fun column h => grouped h.grouped, if_neg grouped⟩

theorem checkSortKeys_cases (plan : QueryPlan) :
    (∃ key, plan.UnlistedKey key ∧ plan.checkSortKeys = .error (.unlistedOrderKey key)) ∨
      (∀ key, ¬plan.UnlistedKey key) ∧ plan.checkSortKeys = .ok () := by
  unfold checkSortKeys
  cases hfind : plan.sort.keys.find? fun key => key ∉ plan.columns with
  | some key =>
    exact .inl ⟨key, ⟨List.mem_of_find?_eq_some hfind, by simpa using List.find?_some hfind⟩, rfl⟩
  | none =>
    refine .inr ⟨fun key h => ?_, rfl⟩
    have inside := List.find?_eq_none.1 hfind key h.listed
    simp [h.notColumn] at inside

/-- All rows of an answer, with all their columns. -/
def answerRows (plan : QueryPlan) (matched : List Record) : List Row :=
  if plan.isGrouped then
    (plan.groupTuples matched).map fun tuple => plan.rowOf tuple (plan.groupMembers matched tuple)
  else matched.map plan.qualifyRecord

theorem length_answerRows (plan : QueryPlan) (matched : List Record) :
    (plan.answerRows matched).length = plan.rowCount matched := by
  unfold answerRows rowCount
  split <;> rw [List.length_map]

/-- Where a cell of a full row comes from. -/
inductive Cell (plan : QueryPlan) (matched : List Record) : String × FieldValue → Prop where
  /-- A record's value of a group field. -/
  | key (name : String) (ref : FieldRef) (record : Record) (hrecord : record ∈ matched) :
    Cell plan matched (name, record.cell ref)
  /-- A value computed for some of the records, of which there is one at least. -/
  | aggregate (spec : AggregateSpec) (hspec : spec ∈ plan.aggregates) (members : List Record)
    (sublist : members.Sublist matched) (filled : members ≠ []) :
    Cell plan matched (spec.name, (spec.value? members).getD default)
  /-- A field of a record. -/
  | field (name : String) (record : Record) (hrecord : record ∈ matched)
    (entry : String × FieldValue) (hentry : entry ∈ record.entries) :
    Cell plan matched (name, entry.2)

theorem cell_of_mem_answerRows {row : Row} (hrow : row ∈ plan.answerRows matched)
    {cell : String × FieldValue} (hcell : cell ∈ row.cells) : Cell plan matched cell := by
  unfold answerRows at hrow
  split at hrow
  · obtain ⟨tuple, htuple, rfl⟩ := List.mem_map.1 hrow
    obtain ⟨first, hfirst, rfl⟩ := List.mem_map.1 (mem_of_mem_eraseDupsBy sameTuple_equiv htuple)
    rcases List.mem_append.1 hcell with hcell | hcell
    · obtain ⟨⟨ref, value⟩, hmem, rfl⟩ := List.mem_map.1 hcell
      obtain ⟨ref', -, rfl⟩ := List.mem_map.1 (List.of_mem_zip hmem).2
      exact .key ref.key ref' first hfirst
    · obtain ⟨spec, hspec, rfl⟩ := List.mem_map.1 hcell
      exact .aggregate spec hspec _ List.filter_sublist
        (List.ne_nil_of_mem (List.mem_filter.2 ⟨hfirst, sameTuple_equiv.refl _⟩))
  · obtain ⟨record, hrecord, rfl⟩ := List.mem_map.1 hrow
    obtain ⟨entry, hentry, rfl⟩ := List.mem_map.1 hcell
    exact .field _ record hrecord entry hentry

theorem fullRows_cases (limit : Nat) (hplan : plan.GroupFits scope.kind)
    (hmatched : ∀ record ∈ matched, record.WellFormed scope.kind) :
    (limit < plan.rowCount matched ∧
      plan.fullRows limit matched = .error (.resultTooLarge limit)) ∨
    (plan.rowCount matched ≤ limit ∧ ∃ spec, plan.LacksMean matched spec ∧
      plan.fullRows limit matched = .error (.meanOutOfRange spec)) ∨
    (plan.rowCount matched ≤ limit ∧ (∀ spec, ¬plan.LacksMean matched spec) ∧
      plan.fullRows limit matched = .ok (plan.answerRows matched)) := by
  unfold fullRows rowCount answerRows
  by_cases grouped : plan.isGrouped = true
  · simp only [grouped, if_true]
    by_cases beyond : limit < (plan.groupTuples matched).length
    · refine .inl ⟨beyond, ?_⟩
      rw [aggregate_eq limit hplan hmatched, if_pos beyond]
    · refine .inr ?_
      have within := Nat.not_lt.1 beyond
      by_cases values : ∀ tuple ∈ plan.groupTuples matched, ∀ spec ∈ plan.aggregates,
          spec.value? (plan.groupMembers matched tuple) ≠ none
      · refine .inr ⟨within, fun spec h => ?_, aggregate_eq_ok hplan hmatched within values⟩
        obtain ⟨tuple, htuple, hmean⟩ := h.missing
        exact values tuple htuple spec h.listed
          (AggregateSpec.value?_eq_none_iff.2 ⟨h.average, hmean⟩)
      · simp only [not_forall, not_not, exists_prop] at values
        obtain ⟨tuple, htuple, spec, hspec, hvalue, failed⟩ :=
          aggregate_eq_error hplan hmatched within values
        obtain ⟨average, hmean⟩ := AggregateSpec.value?_eq_none_iff.1 hvalue
        exact .inl ⟨within, spec, ⟨grouped, hspec, average, tuple, htuple, hmean⟩, failed⟩
  · simp only [grouped, checkLimit]
    by_cases beyond : limit < matched.length
    · exact .inl ⟨beyond, by simp [beyond]⟩
    · exact .inr (.inr ⟨Nat.not_lt.1 beyond, fun spec h => grouped h.grouped, by simp [beyond]⟩)

/-- Rows that could be made are those of the answer. -/
theorem eq_answerRows_of_fullRows {limit : Nat} {full : List Row} (hplan : plan.GroupFits scope.kind)
    (hmatched : ∀ record ∈ matched, record.WellFormed scope.kind)
    (h : plan.fullRows limit matched = .ok full) :
    full = plan.answerRows matched ∧ plan.rowCount matched ≤ limit := by
  rcases fullRows_cases limit hplan hmatched with
    ⟨-, failed⟩ | ⟨-, _, -, failed⟩ | ⟨within, -, answered⟩
  · rw [failed] at h
    contradiction
  · rw [failed] at h
    contradiction
  · exact ⟨Except.ok.inj (h.symm.trans answered), within⟩

def cut (plan : QueryPlan) (row : Row) : Row :=
  ⟨plan.columns.map fun column => (column, (row.get? column).getD default)⟩

theorem project_eq_ok {row : Row} (h : ∀ column ∈ plan.columns, row.get? column ≠ none) :
    plan.project row = .ok (plan.cut row) := by
  unfold project
  rw [mapM_eq_ok_of_forall (g := fun column => (column, (row.get? column).getD default))]
  · rfl
  · intro column hcolumn
    obtain ⟨value, hvalue⟩ := Option.ne_none_iff_exists'.1 (h column hcolumn)
    simp [hvalue]

theorem qualify_inj {id a b : String} : qualify id a = qualify id b ↔ a = b := by
  rw [← String.toList_inj, ← String.toList_inj]
  simp [qualify]

theorem get?_qualifyRecord (plan : QueryPlan) (record : Record) (name : String) :
    (plan.qualifyRecord record).get? (qualify plan.datasetId name) = record.find? name := by
  have found : ∀ entries : Entries FieldValue, Entries.find? (qualify plan.datasetId name)
      (entries.map fun entry => (qualify plan.datasetId entry.1, entry.2)) =
      entries.find? name := by
    intro entries
    induction entries with
    | nil => rfl
    | cons entry entries ih =>
      obtain ⟨key, value⟩ := entry
      rw [List.map_cons, Entries.find?_cons, Entries.find?_cons, ih]
      simp only [qualify_inj]
  exact found record.entries

theorem get?_answerRows (resolved : plan.Resolved scope)
    (hmatched : ∀ record ∈ matched, record.WellFormed scope.kind)
    (columns : ∀ column, ¬plan.ForeignColumn column) {row : Row}
    (hrow : row ∈ plan.answerRows matched) {column : String} (hcolumn : column ∈ plan.columns) :
    row.get? column ≠ none := by
  unfold answerRows at hrow
  split at hrow
  · next grouped =>
    obtain ⟨tuple, htuple, rfl⟩ := List.mem_map.1 hrow
    obtain ⟨first, -, rfl⟩ := List.mem_map.1 (mem_of_mem_eraseDupsBy sameTuple_equiv htuple)
    by_cases hname : ∃ spec ∈ plan.aggregates, spec.name = column
    · obtain ⟨spec, hspec, rfl⟩ := hname
      rw [get?_rowOf_name resolved hspec]
      exact Option.some_ne_none _
    · by_cases hkey : ∃ ref ∈ plan.group, ref.key = column
      · obtain ⟨ref, href, rfl⟩ := hkey
        rw [get?_rowOf_key resolved href]
        exact Option.some_ne_none _
      · simp only [not_exists, not_and] at hname hkey
        exact absurd ⟨grouped, hcolumn, hkey, hname⟩ (columns column)
  · next ungrouped =>
    obtain ⟨record, hrecord, rfl⟩ := List.mem_map.1 hrow
    have keyed : '_' ∈ column.toList := by
      by_contra plain
      exact ungrouped (resolved.plainColumns column hcolumn plain)
    obtain ⟨ref, href⟩ := resolved.columns column hcolumn keyed
    obtain ⟨-, hid, hkind⟩ := Scope.resolve_eq_ok.1 href
    obtain ⟨value, hvalue, -, -⟩ := (hmatched record hrecord).valueOf_eq_ok hkind
    rw [← Scope.key_of_resolve href, FieldRef.key, hid, ← resolved.datasetId, get?_qualifyRecord,
      hvalue]
    exact Option.some_ne_none _

theorem sort_perm (spec : SortSpec) (rows : List Row) : (spec.sort rows).Perm rows := by
  unfold SortSpec.sort
  split
  · exact List.Perm.refl rows
  · exact stableSort_perm _ rows

/-- What is left to check when the columns, the size and the means are fine. -/
theorem format_eq_checked (resolved : plan.Resolved scope)
    (hmatched : ∀ record ∈ matched, record.WellFormed scope.kind)
    (columns : ∀ column, ¬plan.ForeignColumn column) (within : plan.rowCount matched ≤ limit)
    (means : ∀ spec, ¬plan.LacksMean matched spec) :
    plan.format limit matched = (plan.checkSortKeys >>= fun _ =>
      .ok ((plan.sort.sort (plan.answerRows matched)).map plan.cut)) := by
  have passed : plan.checkColumns = .ok () := by
    rcases plan.checkColumns_cases with ⟨column, hforeign, -⟩ | ⟨-, passed⟩
    · exact absurd hforeign (columns column)
    · exact passed
  have rows : plan.fullRows limit matched = .ok (plan.answerRows matched) := by
    rcases fullRows_cases limit resolved.groupFits hmatched with
      ⟨beyond, -⟩ | ⟨-, spec, hmean, -⟩ | ⟨-, -, rows⟩
    · exact absurd within (Nat.not_le.2 beyond)
    · exact absurd hmean (means spec)
    · exact rows
  have counted : checkLimit limit (plan.answerRows matched).length = .ok () := by
    rw [checkLimit, length_answerRows, if_neg (Nat.not_lt.2 within)]
  have projected : (plan.sort.sort (plan.answerRows matched)).mapM plan.project =
      .ok ((plan.sort.sort (plan.answerRows matched)).map plan.cut) :=
    mapM_eq_ok_of_forall fun row hrow => project_eq_ok fun column hcolumn =>
      get?_answerRows resolved hmatched columns ((sort_perm plan.sort _).mem_iff.1 hrow) hcolumn
  rw [format, passed, ok_bind, rows, ok_bind, counted, ok_bind, projected]

theorem format_ends (limit : Nat) (resolved : plan.Resolved scope)
    (hmatched : ∀ record ∈ matched, record.WellFormed scope.kind) (scanned : Nat) :
    plan.Ends limit matched ((plan.format limit matched).map fun rows =>
      ⟨rows, scanned, matched.length⟩) := by
  rcases plan.checkColumns_cases with ⟨column, hforeign, failed⟩ | ⟨columns, passed⟩
  · rw [format, failed]
    exact .ungroupedColumn column hforeign
  rcases fullRows_cases limit resolved.groupFits hmatched with
    ⟨beyond, failed⟩ | ⟨within, spec, hmean, failed⟩ | ⟨within, means, -⟩
  · rw [format, passed, ok_bind, failed]
    exact .resultTooLarge columns beyond
  · rw [format, passed, ok_bind, failed]
    exact .meanOutOfRange columns within spec hmean
  rw [format_eq_checked resolved hmatched columns within means]
  rcases plan.checkSortKeys_cases with ⟨key, hkey, failed⟩ | ⟨keys, passed⟩
  · rw [failed]
    exact .unlistedOrderKey columns within means key hkey
  rw [passed]
  refine .answer columns within means keys _ ?_
  rw [List.length_map, (sort_perm plan.sort _).length_eq, length_answerRows]

/-- The filter of a plan keeps what a document selects, or everything. -/
theorem exists_keeps (resolved : plan.Resolved scope) : ∃ keeps : Record → Bool,
    ((∀ record, keeps record = true) ∨
        ∃ json : Json, ∀ record, keeps record = json.selects record) ∧
      ∀ records : List Record, (∀ record ∈ records, record.WellFormed scope.kind) →
        matching plan.filter records = .ok (records.filter keeps) := by
  cases hfilter : plan.filter with
  | none =>
    exact ⟨fun _ => true, .inl fun _ => rfl, fun records _ => matching_eq_ok (by simp) (by simp)⟩
  | some node =>
    obtain ⟨json, hjson⟩ := resolved.filter node hfilter
    refine ⟨json.selects, .inr ⟨json, fun _ => rfl⟩, fun records h => matching_eq_ok ?_ (by simp)⟩
    rintro _ ⟨⟩ record hrecord
    have follows := (Scope.eval_of_filter (h record hrecord)).1 false json node hjson
    rwa [Bool.xor_false] at follows

/-- The records of a dataset that passed the check can all be judged. -/
theorem exists_matching (resolved : plan.Resolved scope) {records : List Record}
    (h : ∀ record ∈ records, record.WellFormed scope.kind) :
    ∃ matched, matching plan.filter records = .ok matched ∧
      ∀ record ∈ matched, record.WellFormed scope.kind := by
  obtain ⟨keeps, -, hmatching⟩ := exists_keeps resolved
  exact ⟨_, hmatching records h, fun record hrecord => h record (List.mem_filter.1 hrecord).1⟩

/-- A plan that was read from a document is for a dataset that is there, whose records have the
fields of its scope if they passed their check. -/
theorem exists_dataset_of_parse {datasets : Datasets} {query : Json}
    (hparse : datasets.parse query = .ok plan) :
    ∃ scope dataset, plan.Resolved scope ∧ datasets plan.datasetId = some dataset ∧
      (dataset.Built → ∀ record ∈ dataset.records, record.WellFormed scope.kind) := by
  obtain ⟨scope, hscope, resolved⟩ := resolved_of_ofJson hparse
  obtain ⟨dataset, hdataset, hkind⟩ := Option.map_eq_some_iff.1 hscope
  rw [← resolved.datasetId] at hdataset
  refine ⟨scope, dataset, resolved, hdataset, fun built => ?_⟩
  rw [← hkind]
  exact (Dataset.built_iff.1 built).2

/-- Running a plan that was read from a document. -/
theorem execute_ends {datasets : Datasets}
    (built : ∀ id dataset, datasets id = some dataset → dataset.Built) {query : Json}
    (hparse : datasets.parse query = .ok plan) (limit : Nat) :
    ∃ dataset matched, datasets plan.datasetId = some dataset ∧
      matching plan.filter dataset.records = .ok matched ∧
        plan.Ends limit matched (plan.execute datasets limit) := by
  obtain ⟨scope, dataset, resolved, hdataset, fits⟩ := exists_dataset_of_parse hparse
  obtain ⟨matched, hmatching, hmatched⟩ := exists_matching resolved (fits (built _ _ hdataset))
  refine ⟨dataset, matched, hdataset, hmatching, ?_⟩
  have ends := format_ends limit resolved hmatched dataset.records.length
  unfold execute
  rw [hdataset]
  simp only [hmatching, ok_bind]
  cases hformat : plan.format limit matched <;> rw [hformat] at ends <;> exact ends

end QueryPlan

/-- The steps of an answer to a document. -/
theorem Datasets.exists_plan_of_query {datasets : Datasets} {limit : Nat} {query : Json}
    {rows : List Row} (h : datasets.query limit query = .ok rows) :
    ∃ plan dataset matched, datasets.parse query = .ok plan ∧
      datasets plan.datasetId = some dataset ∧
        matching plan.filter dataset.records = .ok matched ∧ plan.format limit matched = .ok rows := by
  obtain ⟨plan, hparse, h⟩ := bind_eq_ok.1 h
  obtain ⟨result, hresult, h⟩ := bind_eq_ok.1 h
  cases h
  unfold QueryPlan.execute at hresult
  split at hresult
  · contradiction
  · next dataset hdataset =>
    obtain ⟨matched, hmatched, hresult⟩ := bind_eq_ok.1 hresult
    obtain ⟨rows, hrows, hresult⟩ := bind_eq_ok.1 hresult
    cases hresult
    exact ⟨plan, dataset, matched, hparse, hdataset, hmatched, hrows⟩

/-- On datasets that passed their check the records that are answered can be judged. -/
theorem Datasets.exists_format_of_query {datasets : Datasets}
    (built : ∀ id dataset, datasets id = some dataset → dataset.Built) {limit : Nat} {query : Json}
    {rows : List Row} (h : datasets.query limit query = .ok rows) :
    ∃ plan scope dataset matched, datasets.parse query = .ok plan ∧
      QueryPlan.Resolved scope plan ∧ datasets plan.datasetId = some dataset ∧
        (∀ record ∈ dataset.records, record.WellFormed scope.kind) ∧
          matched.Sublist dataset.records ∧ plan.format limit matched = .ok rows := by
  obtain ⟨plan, dataset, matched, hparse, hdataset, hmatched, hrows⟩ := exists_plan_of_query h
  obtain ⟨scope, there, resolved, hthere, fits⟩ := QueryPlan.exists_dataset_of_parse hparse
  obtain rfl := Option.some.inj (hdataset.symm.trans hthere)
  have wellFormed := fits (built _ _ hdataset)
  obtain ⟨keeps, -, hmatching⟩ := QueryPlan.exists_keeps resolved
  obtain rfl := Except.ok.inj ((hmatching dataset.records wellFormed).symm.trans hmatched)
  exact ⟨plan, scope, dataset, _, hparse, resolved, hdataset, wellFormed, List.filter_sublist,
    hrows⟩

/-- On datasets that passed their check, a plan that was read from a document fails for the first of
the four reasons that applies, or gives rows; and no document is answered by a missing dataset. -/
theorem Datasets.query_sound {datasets : Datasets}
    (built : ∀ id dataset, datasets id = some dataset → dataset.Built) (limit : Nat) :
    (∀ query plan, datasets.parse query = .ok plan →
      ∃ dataset matched, datasets plan.datasetId = some dataset ∧
        matching plan.filter dataset.records = .ok matched ∧
          plan.Ends limit matched (plan.execute datasets limit)) ∧
    ∀ query e, datasets.query limit query = .error e → e.code ≠ .notFound := by
  refine ⟨fun query plan hparse => QueryPlan.execute_ends built hparse limit, ?_⟩
  intro query e h
  unfold Datasets.query at h
  cases hparse : datasets.parse query with
  | error refused =>
    rw [hparse] at h
    cases h
    rw [rejects_parse datasets query e hparse]
    decide
  | ok plan =>
    obtain ⟨dataset, matched, -, -, ends⟩ := QueryPlan.execute_ends built hparse limit
    rw [hparse, ok_bind] at h
    cases hexecute : plan.execute datasets limit with
    | ok result =>
      rw [hexecute] at h
      contradiction
    | error failed =>
      rw [hexecute] at h ends
      cases h
      cases ends <;> simp [QueryError.code]

theorem Datasets.query_sound_sample :
    (∀ id dataset, sampleDatasets id = some dataset → dataset.Built) ∧
      sampleDatasets.parse sampleGrouping = .ok samplePlan ∧
        samplePlan.Ends 1 sampleSections (samplePlan.execute sampleDatasets 1) := by
  obtain ⟨dataset, matched, hdataset, hmatching, ends⟩ :=
    (Datasets.query_sound sampleDatasets_built 1).1 _ samplePlan sampleGrouping_parse
  obtain rfl : ⟨"cs", .courses, sampleSections⟩ = dataset := Option.some.inj hdataset
  obtain rfl : sampleSections = matched := Except.ok.inj hmatching
  exact ⟨sampleDatasets_built, sampleGrouping_parse, ends⟩

end CampusQuery
