import CampusQuery.Proofs.Query.Encoding

/-!
The columns of rows. Main statement: a row that stands for a record names no column twice, that of a
group repeats what GROUP repeats, and a row that is returned repeats what COLUMNS repeats.
-/

namespace CampusQuery

section Buckets

variable {limit : Nat} {fields : List FieldRef} {records : List Record}

/-- A record brings at most its own key. -/
theorem Buckets.mem_keys_of_add {key other : List FieldValue} {record : Record}
    {buckets after : Buckets} (h : buckets.add limit key record = .ok after)
    (hother : other ∈ after.keys) : other = key ∨ other ∈ buckets.keys := by
  unfold add at h
  dsimp only at h
  split at h
  · cases h
    exact .inr hother
  · split at h
    · contradiction
    · cases h
      exact List.mem_cons.1 hother

/-- Each group has a value for each of the fields, whatever the records are. -/
theorem length_key_of_groupRecords {groups : List Bucket}
    (h : groupRecords limit fields records = .ok groups) :
    ∀ bucket ∈ groups, bucket.key.length = fields.length := by
  obtain ⟨buckets, hbuckets, h⟩ := bind_eq_ok.1 h
  cases h
  have filled : ∀ key ∈ buckets.keys, key.length = fields.length := by
    refine foldlM_keeps (p := fun buckets => ∀ key ∈ buckets.keys, key.length = fields.length)
      ?_ hbuckets (List.forall_mem_nil _)
    intro before record after hstep hbefore key hkey
    obtain ⟨own, hown, hadd⟩ := bind_eq_ok.1 hstep
    rcases Buckets.mem_keys_of_add hadd hkey with rfl | hkey
    · exact (mapM_eq_ok_iff.1 hown).length_eq.symm
    · exact hbefore key hkey
  intro bucket hbucket
  obtain ⟨key, hkey, rfl⟩ := List.mem_map.1 hbucket
  exact filled key (List.mem_reverse.1 hkey)

theorem Bucket.columns_row {bucket : Bucket} {aggregates : List AggregateSpec} {row : Row}
    (size : bucket.key.length = fields.length) (h : bucket.row fields aggregates = .ok row) :
    row.columns = fields.map FieldRef.key ++ aggregates.map AggregateSpec.name := by
  obtain ⟨computed, hcomputed, h⟩ := bind_eq_ok.1 h
  cases h
  have keys : (fields.zip bucket.key).map (fun cell => cell.1.key) = fields.map FieldRef.key := by
    have fst : (fun cell : FieldRef × FieldValue => cell.1.key) = FieldRef.key ∘ Prod.fst := rfl
    rw [fst, ← List.map_map, List.map_fst_zip size.ge]
  have names : aggregates.map AggregateSpec.name = computed.map (·.1) := by
    rw [← List.forall₂_eq_eq_eq, List.forall₂_map_left_iff, List.forall₂_map_right_iff]
    refine (mapM_eq_ok_iff.1 hcomputed).imp fun spec cell hcell => ?_
    obtain ⟨value, -, rfl⟩ := map_eq_ok.1 hcell
    rfl
  rw [Row.columns, List.map_append, List.map_map, names, ← keys]
  rfl

end Buckets

/-- The text of a row is read with the row's columns as they stand. -/
theorem Row.exists_members_text (row : Row) : ∃ members,
    RawJson.parse? row.text = some (.object members) ∧
      members.map (·.1) = row.columns.map some := by
  refine ⟨_, row.parse?_text, ?_⟩
  rw [Row.columns, List.map_map, List.map_map]
  rfl

namespace QueryPlan

variable {plan : QueryPlan}

theorem nodup_columns_qualifyRecord (plan : QueryPlan) (record : Record) :
    (plan.qualifyRecord record).columns.Nodup := by
  have columns : (plan.qualifyRecord record).columns =
      record.names.map (qualify plan.datasetId) := by
    rw [Row.columns, qualifyRecord, Dictionary.names, List.map_map, List.map_map]
    rfl
  rw [columns]
  exact record.ascending.nodup.map fun _ _ => qualify_inj.1

theorem columns_of_project {row cut : Row} (h : plan.project row = .ok cut) :
    cut.columns = plan.columns := by
  symm
  rw [Row.columns, ← List.forall₂_eq_eq_eq, List.forall₂_map_right_iff]
  exact (project_eq_ok_iff.1 h).imp fun column cell hcell => hcell.1.symm

/-- The columns of the rows of an answer, before and after they are cut. -/
structure NamesColumns (plan : QueryPlan) (full rows : List Row) : Prop where
  /-- The row of a group has its keys and its aggregates. -/
  grouped : plan.isGrouped = true → ∀ row ∈ full,
    row.columns = plan.group.map FieldRef.key ++ plan.aggregates.map AggregateSpec.name
  distinct : ∀ row ∈ full, row.columns.Nodup ↔ (plan.group.map FieldRef.key).Nodup
  listed : ∀ row ∈ rows, row.columns = plan.columns
  /-- The names in the text of a row are read as they stand in it. -/
  printed : ∀ row ∈ rows, ∃ members, RawJson.parse? row.text = some (.object members) ∧
    members.map (·.1) = plan.columns.map some ∧
      ((members.map (·.1)).Nodup ↔ plan.columns.Nodup)

/-- The names of APPLY are different from each other and from every key. -/
theorem Resolved.nodup_groupColumns_iff {scope : Scope} (resolved : plan.Resolved scope) :
    (plan.group.map FieldRef.key ++ plan.aggregates.map AggregateSpec.name).Nodup ↔
      (plan.group.map FieldRef.key).Nodup := by
  rw [List.nodup_append]
  constructor
  · exact And.left
  · intro keys
    refine ⟨keys, resolved.distinctNames, ?_⟩
    simp only [List.forall_mem_map]
    exact fun ref _ spec hspec => resolved.key_ne_name hspec

theorem columns_of_aggregate {limit : Nat} {matched : List Record} {full : List Row}
    (h : plan.aggregate limit matched = .ok full) : ∀ row ∈ full,
      row.columns = plan.group.map FieldRef.key ++ plan.aggregates.map AggregateSpec.name := by
  obtain ⟨buckets, hbuckets, h⟩ := bind_eq_ok.1 h
  intro row hrow
  obtain ⟨bucket, hbucket, hmade⟩ := exists_of_mem_right (mapM_eq_ok_iff.1 h) hrow
  exact Bucket.columns_row (length_key_of_groupRecords hbuckets bucket hbucket) hmade

theorem nodup_columns_of_fullRows {scope : Scope} {limit : Nat} {matched : List Record}
    {full : List Row} (resolved : plan.Resolved scope)
    (h : plan.fullRows limit matched = .ok full) :
    ∀ row ∈ full, row.columns.Nodup ↔ (plan.group.map FieldRef.key).Nodup := by
  intro row hrow
  unfold fullRows at h
  split at h
  · rw [columns_of_aggregate h row hrow, resolved.nodup_groupColumns_iff]
  · next ungrouped =>
    obtain ⟨-, h⟩ := check_bind_eq_ok.1 h
    cases h
    obtain ⟨record, -, rfl⟩ := List.mem_map.1 hrow
    have keyless : plan.group = [] := by simpa [isGrouped] using ungrouped
    exact iff_of_true (plan.nodup_columns_qualifyRecord record) (by simp [keyless])

theorem namesColumns_of_format {scope : Scope} {limit : Nat} {matched : List Record}
    {rows : List Row} (resolved : plan.Resolved scope) (h : plan.format limit matched = .ok rows) :
    ∃ full, plan.fullRows limit matched = .ok full ∧
      (plan.sort.sort full).mapM plan.project = .ok rows ∧ plan.NamesColumns full rows := by
  obtain ⟨full, hfull, -, hrows⟩ := exists_fullRows h
  have listed : ∀ row ∈ rows, row.columns = plan.columns := by
    intro row hrow
    obtain ⟨uncut, -, hcut⟩ := exists_of_mem_right (mapM_eq_ok_iff.1 hrows) hrow
    exact columns_of_project hcut
  refine ⟨full, hfull, hrows, fun grouped => ?_, nodup_columns_of_fullRows resolved hfull, listed,
    fun row hrow => ?_⟩
  · unfold fullRows at hfull
    rw [if_pos grouped] at hfull
    exact columns_of_aggregate hfull
  · obtain ⟨members, hmembers, names⟩ := row.exists_members_text
    rw [listed row hrow] at names
    refine ⟨members, hmembers, names, ?_⟩
    rw [names, List.nodup_map_iff (Option.some_injective _)]

end QueryPlan

/-- In an answer a row that stands for a record names no column twice. The row of a group repeats a
column exactly if GROUP repeats a key, and a row that is returned has the columns of COLUMNS, so its
text repeats a name exactly if COLUMNS does. -/
theorem Datasets.query_columns_as_listed {datasets : Datasets} {limit : Nat} {query : Json}
    {rows : List Row} (h : datasets.query limit query = .ok rows) :
    ∃ plan dataset matched full, datasets.parse query = .ok plan ∧ plan.Lists query ∧
      datasets plan.datasetId = some dataset ∧
        matching plan.filter dataset.records = .ok matched ∧
          plan.fullRows limit matched = .ok full ∧
            (plan.sort.sort full).mapM plan.project = .ok rows ∧
              (∀ record, (plan.qualifyRecord record).columns.Nodup) ∧
                plan.NamesColumns full rows := by
  obtain ⟨plan, dataset, matched, hparse, hdataset, hmatched, hrows⟩ := exists_plan_of_query h
  obtain ⟨scope, -, plans⟩ := QueryPlan.ofJson_iff.1 hparse
  obtain ⟨full, hfull, hcut, names⟩ := QueryPlan.namesColumns_of_format plans.resolved hrows
  exact ⟨plan, dataset, matched, full, hparse, plans.lists, hdataset, hmatched, hfull, hcut,
    plan.nodup_columns_qualifyRecord, names⟩

theorem Datasets.query_columns_as_listed_sample : ∃ rows full,
    sampleDatasets.query 2 sampleGrouping = .ok rows ∧ rows.length = 2 ∧
      samplePlan.fullRows 2 sampleSections = .ok full ∧ samplePlan.NamesColumns full rows := by
  obtain ⟨rows, hrows, hlength⟩ : ∃ rows, sampleDatasets.query 2 sampleGrouping = .ok rows ∧
      rows.length = 2 := ⟨_, rfl, rfl⟩
  obtain ⟨plan, dataset, matched, full, hparse, -, hdataset, hmatched, hfull, -, -, names⟩ :=
    Datasets.query_columns_as_listed hrows
  obtain rfl : samplePlan = plan := Except.ok.inj (sampleGrouping_parse.symm.trans hparse)
  obtain rfl : ⟨"cs", .courses, sampleSections⟩ = dataset := Option.some.inj hdataset
  obtain rfl : sampleSections = matched := Except.ok.inj hmatched
  exact ⟨rows, full, hrows, hlength, hfull, names⟩

/-- A document that names one field twice, as a key of the groups and as a column. -/
def sampleRepeats : Json :=
  .object [("FILTER", .object []),
    ("OPTIONS", .object [("COLUMNS", .array [.string "cs_dept", .string "cs_dept"])]),
    ("TRANSFORM", .object [("APPLY", .array []),
      ("GROUP", .array [.string "cs_dept", .string "cs_dept"])])]

/-- The field is then in the row of each group twice, in what is returned of it and in its text. -/
theorem Datasets.query_of_repeated_column : ∃ plan full rows,
    sampleDatasets.parse sampleRepeats = .ok plan ∧
      plan.fullRows defaultLimit sampleSections = .ok full ∧
        sampleDatasets.query defaultLimit sampleRepeats = .ok rows ∧
          full.map Row.columns = [["cs_dept", "cs_dept"], ["cs_dept", "cs_dept"]] ∧
            rows.map Row.text = ["\x7b\"cs_dept\":\"cpsc\",\"cs_dept\":\"cpsc\"\x7d",
              "\x7b\"cs_dept\":\"math\",\"cs_dept\":\"math\"\x7d"] ∧
              ∀ row ∈ full ++ rows, ¬row.columns.Nodup := by
  refine ⟨_, _, _, rfl, rfl, rfl, rfl, ?_, ?_⟩
  all_goals decide +kernel

end CampusQuery
