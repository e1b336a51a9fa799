import CampusQuery.Proofs.Query.Soundness

/-!
The limit on rows. Main statement: a plan whose columns are fine fails for its size exactly when it
has more rows than the limit, whatever else is wrong with it and in whatever order the records
stand; and the check while groups are made says what counting all groups afterwards says.
-/

namespace CampusQuery

/-- Adds a record to the group of that key, however many groups there are. -/
def Buckets.put (key : List FieldValue) (record : Record) (buckets : Buckets) : Buckets :=
  match buckets.members[codeOf key]? with
  | some members =>
    { buckets with members := buckets.members.insert (codeOf key) (record :: members) }
  | none => ⟨key :: buckets.keys, buckets.members.insert (codeOf key) [record]⟩

/-- The groups of the records, however many there are. -/
def groupAll (fields : List FieldRef) (records : List Record) : QueryResult (List Bucket) := do
  let putRecord (buckets : Buckets) (record : Record) : QueryResult Buckets := do
    return buckets.put (← groupKey fields record) record
  let buckets ← records.foldlM putRecord .empty
  return buckets.toList

theorem Buckets.put_of_add {limit : Nat} {key : List FieldValue} {record : Record}
    {buckets after : Buckets} (h : buckets.add limit key record = .ok after) :
    buckets.put key record = after := by
  unfold add at h
  unfold put
  cases hmembers : buckets.members[codeOf key]? with
  | some members =>
    simp only [hmembers] at h
    exact Except.ok.inj h
  | none =>
    simp only [hmembers] at h
    split at h
    · contradiction
    · exact Except.ok.inj h

/-- A limit that lets the groups through does not change them. -/
theorem groupAll_of_groupRecords {limit : Nat} {fields : List FieldRef} {records : List Record}
    {groups : List Bucket} (h : groupRecords limit fields records = .ok groups) :
    groupAll fields records = .ok groups := by
  obtain ⟨buckets, hbuckets, hgroups⟩ := bind_eq_ok.1 h
  refine bind_eq_ok.2 ⟨buckets, foldlM_eq_ok_of_forall ?_ hbuckets, hgroups⟩
  intro before record after hstep
  obtain ⟨key, hkey, hadd⟩ := bind_eq_ok.1 hstep
  rw [hkey, ok_bind, Buckets.put_of_add hadd]
  rfl

/-- Counting while groups are made is counting them in the end. -/
theorem groupRecords_eq_check {kind : SchemaKind} {fields : List FieldRef} {records : List Record}
    (hfields : ∀ ref ∈ fields, ref.field.kind = kind)
    (hrecords : ∀ record ∈ records, record.WellFormed kind) :
    ∃ groups, groupAll fields records = .ok groups ∧
      groups.length = (distinctTuples (records.map (Record.tuple fields))).length ∧
        ∀ limit, groupRecords limit fields records =
          if limit < groups.length then .error (.resultTooLarge limit) else .ok groups := by
  have counted := fun limit => groupRecords_eq limit hfields hrecords
  have roomy := counted (distinctTuples (records.map (Record.tuple fields))).length
  rw [if_neg (Nat.lt_irrefl _)] at roomy
  refine ⟨_, groupAll_of_groupRecords roomy, List.length_map _, fun limit => ?_⟩
  rw [counted, List.length_map]

namespace QueryPlan

/-- What the limit does to a plan on the records that passed its filter. -/
structure Capped (plan : QueryPlan) (records : List Record) : Prop where
  /-- Only the number of rows tells whether a plan fails for its size. -/
  verdict : ∀ limit, ∀ others : List Record, others.Perm records →
    ((∃ n, plan.format limit others = .error (.resultTooLarge n)) ↔ limit < plan.rowCount records)
  /-- Neither a mean out of range nor a sort key that is no column is seen before the size. -/
  first : ∀ limit, limit < plan.rowCount records →
    plan.format limit records = .error (.resultTooLarge limit)
  /-- Grouped rows are counted by their tuples. -/
  counted : plan.isGrouped = true → (∀ record ∈ records, record.IsOrdered) →
    plan.rowCount records = (records.map (Record.tuple plan.group)).eraseDups.length
  /-- Without groups each record has a row. -/
  listed : plan.isGrouped = false → plan.rowCount records = records.length
  /-- The check while groups are made agrees with one at the end. -/
  early : plan.isGrouped = true → ∃ groups, groupAll plan.group records = .ok groups ∧
    groups.length = plan.rowCount records ∧ ∀ limit, groupRecords limit plan.group records =
      (checkLimit limit groups.length >>= fun _ => .ok groups)
  /-- The rows of groups pass the check after them. -/
  late : plan.isGrouped = true → ∀ limit rows, plan.fullRows limit records = .ok rows →
    checkLimit limit rows.length = .ok ()
  /-- A higher limit does not change the rows. -/
  raised : ∀ limit limit' rows, limit ≤ limit' → plan.format limit records = .ok rows →
    plan.format limit' records = .ok rows

variable {plan : QueryPlan} {scope : Scope} {records : List Record}

theorem rowCount_perm {others : List Record} (h : others.Perm records) :
    plan.rowCount others = plan.rowCount records := by
  have tuples := distinctTuples_perm (h.map (Record.tuple plan.group))
  unfold rowCount groupTuples
  rw [h.length_eq, ← List.length_map codeOf, tuples.length_eq, List.length_map]

theorem fullRows_eq (limit : Nat) (hplan : plan.GroupFits scope.kind)
    (hrecords : ∀ record ∈ records, record.WellFormed scope.kind) :
    plan.fullRows limit records = if limit < plan.rowCount records then
      .error (.resultTooLarge limit) else plan.fullRows (plan.rowCount records) records := by
  unfold fullRows rowCount
  cases plan.isGrouped with
  | true =>
    simp only [if_true]
    rw [aggregate_eq limit hplan hrecords, aggregate_eq _ hplan hrecords,
      if_neg (Nat.lt_irrefl _)]
  | false =>
    simp only [Bool.false_eq_true, if_false, checkLimit, Nat.lt_irrefl]
    split <;> rfl

theorem length_of_fullRows {limit : Nat} {rows : List Row} (hplan : plan.GroupFits scope.kind)
    (hrecords : ∀ record ∈ records, record.WellFormed scope.kind)
    (h : plan.fullRows limit records = .ok rows) :
    rows.length = plan.rowCount records ∧ plan.rowCount records ≤ limit := by
  obtain ⟨rfl, within⟩ := eq_answerRows_of_fullRows hplan hrecords h
  exact ⟨length_answerRows plan records, within⟩

/-- A plan with fine columns fails for its size or ends in a way that no limit changes. -/
theorem format_eq (limit : Nat) (hplan : plan.GroupFits scope.kind)
    (columns : plan.checkColumns = .ok ())
    (hrecords : ∀ record ∈ records, record.WellFormed scope.kind) :
    plan.format limit records = if limit < plan.rowCount records then
      .error (.resultTooLarge limit) else plan.format (plan.rowCount records) records := by
  unfold format
  rw [columns, ok_bind, ok_bind, fullRows_eq limit hplan hrecords]
  split
  · rfl
  · next within =>
    refine bind_congr_of_ok fun rows hrows => ?_
    obtain ⟨hlength, -⟩ := length_of_fullRows hplan hrecords hrows
    rw [checkLimit, checkLimit, hlength, if_neg within, if_neg (Nat.lt_irrefl _)]

theorem lt_rowCount_of_format {limit n : Nat} (resolved : plan.Resolved scope)
    (hrecords : ∀ record ∈ records, record.WellFormed scope.kind)
    (h : plan.format limit records = .error (.resultTooLarge n)) :
    limit < plan.rowCount records := by
  have ends := format_ends limit resolved hrecords records.length
  rw [h] at ends
  cases ends with
  | resultTooLarge _ beyond => exact beyond

/-- The plan of a document is held to the limit by the number of its rows alone, once its columns
passed their check. -/
theorem limit_counts_rows {datasets : Datasets} {query : Json} {dataset : Dataset}
    (hparse : datasets.parse query = .ok plan)
    (hdataset : datasets plan.datasetId = some dataset) (columns : plan.checkColumns = .ok ())
    (hrecords : ∀ record ∈ records, record.WellFormed dataset.kind) : plan.Capped records := by
  obtain ⟨scope, hscope, resolved⟩ := resolved_of_ofJson hparse
  have hkind : scope.kind = dataset.kind := by
    rw [← resolved.datasetId, hdataset] at hscope
    simpa using hscope.symm
  rw [← hkind] at hrecords
  have ends := fun limit => format_eq limit resolved.groupFits columns hrecords
  constructor
  case verdict =>
    intro limit others perm
    have wellFormed : ∀ record ∈ others, record.WellFormed scope.kind :=
      fun record hrecord => hrecords record (perm.mem_iff.1 hrecord)
    rw [← rowCount_perm perm]
    constructor
    · rintro ⟨n, failed⟩
      exact lt_rowCount_of_format resolved wellFormed failed
    · intro beyond
      refine ⟨limit, ?_⟩
      rw [format_eq limit resolved.groupFits columns wellFormed, if_pos beyond]
  case first =>
    intro limit beyond
    rw [ends, if_pos beyond]
  case counted =>
    intro grouped ordered
    rw [rowCount, if_pos grouped, eraseDups_eq_groupTuples plan ordered]
  case listed =>
    intro ungrouped
    rw [rowCount, ungrouped, if_neg Bool.false_ne_true]
  case early =>
    intro grouped
    obtain ⟨groups, hgroups, hlength, hlimit⟩ :=
      groupRecords_eq_check resolved.groupFits.group hrecords
    refine ⟨groups, hgroups, ?_, fun limit => ?_⟩
    · rw [hlength, rowCount, if_pos grouped, groupTuples]
    · rw [hlimit, checkLimit]
      split <;> rfl
  case late =>
    intro _ limit rows hrows
    obtain ⟨hlength, within⟩ := length_of_fullRows resolved.groupFits hrecords hrows
    rw [checkLimit, hlength, if_neg (Nat.not_lt.2 within)]
  case raised =>
    intro limit limit' rows hle hrows
    rw [ends] at hrows ⊢
    by_cases beyond : limit < plan.rowCount records
    · rw [if_pos beyond] at hrows
      contradiction
    · rw [if_neg beyond] at hrows
      rw [if_neg (fun beyond' => beyond (Nat.lt_of_le_of_lt hle beyond')), hrows]

/-- Three sections of two departments are one row too many for a limit of one, in any order. -/
theorem limit_counts_rows_sample :
    sampleDatasets.parse sampleGrouping = .ok samplePlan ∧
      (∃ n, samplePlan.format 1 sampleSections.reverse = .error (.resultTooLarge n)) ∧
        ∀ n, samplePlan.format 2 sampleSections.reverse ≠ .error (.resultTooLarge n) := by
  have columns : samplePlan.checkColumns = .ok () := rfl
  have capped := limit_counts_rows sampleGrouping_parse rfl columns sampleSections_wellFormed
  have count : samplePlan.rowCount sampleSections = 2 := by decide
  have verdict := fun limit => capped.verdict limit _ (List.reverse_perm sampleSections)
  refine ⟨sampleGrouping_parse, (verdict 1).2 (by omega), fun n failed => ?_⟩
  have beyond := (verdict 2).1 ⟨n, failed⟩
  omega

end QueryPlan

end CampusQuery
