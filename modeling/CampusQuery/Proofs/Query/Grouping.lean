import CampusQuery.Proofs.Data.Dataset
import CampusQuery.Proofs.Number.Extremes
import CampusQuery.Proofs.Query.Plan

/-!
What grouped queries answer. Main statement: the rows stand for the classes of records that agree on
the group fields, in the order in which the classes are first seen, and say of each class what its
records have in common and what the aggregates of its records are.
-/

namespace CampusQuery

/-- No value of the record is a number that is none. -/
def Record.IsOrdered (record : Record) : Prop :=
  ∀ name value, record.find? name = some value → value.IsOrdered

theorem Record.IsOrdered.cell {record : Record} (h : record.IsOrdered) (ref : FieldRef) :
    (record.cell ref).IsOrdered := by
  rw [Record.cell]
  cases hvalue : record.find? ref.field.name with
  | none => trivial
  | some value => exact h _ _ hvalue

theorem Record.IsOrdered.tuple {record : Record} (h : record.IsOrdered) (fields : List FieldRef) :
    ∀ value ∈ record.tuple fields, value.IsOrdered := by
  intro value hvalue
  obtain ⟨ref, -, rfl⟩ := List.mem_map.1 hvalue
  exact h.cell ref

theorem beq_tuple {as bs : List FieldValue} (h : ∀ b ∈ bs, b.IsOrdered) :
    (as == bs) = sameTuple as bs := by
  induction as generalizing bs with
  | nil => cases bs <;> rfl
  | cons a as ih =>
    cases bs with
    | nil => rfl
    | cons b bs =>
      have head : (a == b) = a.same b := by
        rw [Bool.eq_iff_iff, FieldValue.same_iff_beq (h b List.mem_cons_self)]
      rw [List.cons_beq_cons, head, ih fun c hc => h c (List.mem_cons_of_mem b hc)]
      rfl

/-- Tuples are equal when they agree on every field. -/
theorem beq_tuple_iff {fields : List FieldRef} {a b : Record} :
    (a.tuple fields == b.tuple fields) = true ↔
      ∀ ref ∈ fields, (a.cell ref == b.cell ref) = true := by
  rw [beq_iff_forall₂, Record.tuple, Record.tuple, List.forall₂_map_left_iff,
    List.forall₂_map_right_iff, List.forall₂_same]

theorem eraseDups_eq_same {values : List FieldValue} (h : ∀ value ∈ values, value.IsOrdered) :
    values.eraseDups = values.eraseDupsBy FieldValue.same := by
  apply eraseDupsBy_congr
  intro a ha b hb
  rw [Bool.eq_iff_iff, FieldValue.same_iff_beq (h b hb)]

theorem eraseDups_eq_distinctTuples {tuples : List (List FieldValue)}
    (h : ∀ tuple ∈ tuples, ∀ value ∈ tuple, value.IsOrdered) :
    tuples.eraseDups = distinctTuples tuples :=
  eraseDupsBy_congr fun _ _ b hb => beq_tuple (h b hb)

namespace QueryPlan

/-- What the row of a group says of the records in it. -/
structure Describes (plan : QueryPlan) (members : List Record) (row : Row) : Prop where
  /-- A group column has the value that all members share. -/
  shared : ∀ ref ∈ plan.group, ∃ value, row.get? ref.key = some value ∧
    ∀ member ∈ members, (member.cell ref == value) = true
  /-- How many different values the members have. -/
  count : ∀ spec ∈ plan.aggregates, spec.op = .count → row.get? spec.name =
    some (.number (doubleOfInt ((members.map (Record.cell spec.target)).eraseDups.length)))
  max : ∀ spec ∈ plan.aggregates, spec.op = .max → ∃ x, row.get? spec.name = some (.number x) ∧
    (∀ member ∈ members, member.numberOf spec.target ≤ x) ∧
      ∃ member ∈ members, (member.numberOf spec.target == x) = true
  min : ∀ spec ∈ plan.aggregates, spec.op = .min → ∃ x, row.get? spec.name = some (.number x) ∧
    (∀ member ∈ members, x ≤ member.numberOf spec.target) ∧
      ∃ member ∈ members, (member.numberOf spec.target == x) = true
  /-- The sum is taken in the order of the records. -/
  sum : ∀ spec ∈ plan.aggregates, spec.op = .sum → row.get? spec.name =
    some (.number ((members.map (Record.numberOf spec.target)).foldl (· + ·) 0.0))
  avg : ∀ spec ∈ plan.aggregates, spec.op = .avg → ∃ x,
    decimalMean? (members.map (Record.numberOf spec.target)) = some x ∧
      row.get? spec.name = some (.number x)

/-- The tuples of the group fields split the records into classes, and each row describes the class
of its tuple. -/
structure Partitions (plan : QueryPlan) (records : List Record)
    (tuples : List (List FieldValue)) (rows : List Row) : Prop where
  distinct : tuples.Pairwise fun a b => (a == b) = false
  /-- Tuples come in the order in which they are first seen. -/
  firstSeen : tuples.Pairwise fun a b =>
    records.findIdx (fun record => record.tuple plan.group == a) <
      records.findIdx (fun record => record.tuple plan.group == b)
  /-- Each record is in exactly one class. -/
  covered : ∀ record ∈ records, ∃! i : Fin tuples.length,
    (record.tuple plan.group == tuples[i]) = true
  /-- Records are in one class when they agree on every group field. -/
  together : ∀ a ∈ records, ∀ b ∈ records,
    (∃ i : Fin tuples.length, (a.tuple plan.group == tuples[i]) = true ∧
      (b.tuple plan.group == tuples[i]) = true) ↔
    ∀ ref ∈ plan.group, (a.cell ref == b.cell ref) = true
  rows : List.Forall₂ (fun tuple row => plan.Describes
    (records.filter fun record => record.tuple plan.group == tuple) row) tuples rows

variable {scope : Scope} {plan : QueryPlan} {records members : List Record}

theorem get?_rowOf_key (hplan : plan.Resolved scope) {ref : FieldRef} (href : ref ∈ plan.group)
    (first : Record) : (plan.rowOf (first.tuple plan.group) members).get? ref.key =
      some (first.cell ref) := by
  have found := Entries.find?_map_of_mem FieldRef.key (fun ref => first.cell ref) href
    fun other hother heq => by rw [Record.cell, hplan.name_inj hother href heq, Record.cell]
  rw [Row.get?, rowOf, Entries.find?_append, Record.tuple, map_zip_map_self, found]
  rfl

theorem get?_rowOf_name (hplan : plan.Resolved scope) {spec : AggregateSpec}
    (hspec : spec ∈ plan.aggregates) (tuple : List FieldValue) :
    (plan.rowOf tuple members).get? spec.name = some ((spec.value? members).getD default) := by
  have found := Entries.find?_map_of_mem AggregateSpec.name
    (fun spec => (spec.value? members).getD default) hspec
    fun other hother heq => by
      rw [List.inj_on_of_nodup_map hplan.distinctNames hother hspec heq]
  have missing : Entries.find? spec.name ((plan.group.zip tuple).map fun cell =>
      (cell.1.key, cell.2)) = none := by
    rw [Entries.find?_eq_none]
    rintro entry hentry
    obtain ⟨⟨ref, value⟩, -, rfl⟩ := List.mem_map.1 hentry
    exact hplan.key_ne_name hspec
  rw [Row.get?, rowOf, Entries.find?_append, missing, found]
  rfl

/-- The numbers of ordered members are numbers. -/
theorem isNaN_numberOf (hplan : plan.Resolved scope) {spec : AggregateSpec}
    (hspec : spec ∈ plan.aggregates) (hop : spec.op.requiresNumeric = true)
    (h : ∀ member ∈ members, member.WellFormed scope.kind ∧ member.IsOrdered) :
    ∀ x ∈ members.map (Record.numberOf spec.target), x.isNaN = false := by
  intro x hx
  obtain ⟨member, hmember, rfl⟩ := List.mem_map.1 hx
  obtain ⟨hkind, hnumeric⟩ := hplan.groupFits.aggregates spec hspec
  have hcell := (h member hmember).1.cell_eq_number hkind (hnumeric hop)
  have ordered := (h member hmember).2.cell spec.target
  rwa [hcell] at ordered

/-- The row of a group describes its members. -/
theorem describes_rowOf (hplan : plan.Resolved scope) {first : Record}
    (h : ∀ member ∈ members, member.WellFormed scope.kind ∧ member.IsOrdered)
    (shared : ∀ member ∈ members, (member.tuple plan.group == first.tuple plan.group) = true)
    (filled : members ≠ [])
    (values : ∀ spec ∈ plan.aggregates, spec.value? members ≠ none) :
    plan.Describes members (plan.rowOf (first.tuple plan.group) members) where
  shared ref href := by
    refine ⟨first.cell ref, get?_rowOf_key hplan href first, fun member hmember => ?_⟩
    exact beq_tuple_iff.1 (shared member hmember) ref href
  count spec hspec hop := by
    have ordered : ∀ value ∈ members.map (Record.cell spec.target), value.IsOrdered := by
      intro value hvalue
      obtain ⟨member, hmember, rfl⟩ := List.mem_map.1 hvalue
      exact (h member hmember).2.cell spec.target
    rw [get?_rowOf_name hplan hspec, AggregateSpec.value?, hop, countDistinct_eq,
      eraseDups_eq_same ordered]
    rfl
  max spec hspec hop := by
    have ordered := isNaN_numberOf hplan hspec (by rw [hop]; rfl) h
    obtain ⟨above, member⟩ := foldl_larger ordered (by simpa using filled)
    refine ⟨_, by rw [get?_rowOf_name hplan hspec, AggregateSpec.value?, hop]; rfl, ?_, ?_⟩
    · intro member hmember
      exact above _ (List.mem_map_of_mem hmember)
    · simpa using member
  min spec hspec hop := by
    have ordered := isNaN_numberOf hplan hspec (by rw [hop]; rfl) h
    obtain ⟨below, member⟩ := foldl_smaller ordered (by simpa using filled)
    refine ⟨_, by rw [get?_rowOf_name hplan hspec, AggregateSpec.value?, hop]; rfl, ?_, ?_⟩
    · intro member hmember
      exact below _ (List.mem_map_of_mem hmember)
    · simpa using member
  sum spec hspec hop := by
    rw [get?_rowOf_name hplan hspec, AggregateSpec.value?, hop]
    rfl
  avg spec hspec hop := by
    have hvalue := values spec hspec
    rw [AggregateSpec.value?, hop] at hvalue
    cases hmean : decimalMean? (members.map (Record.numberOf spec.target)) with
    | none => simp [hmean] at hvalue
    | some x =>
      refine ⟨x, rfl, ?_⟩
      rw [get?_rowOf_name hplan hspec, AggregateSpec.value?, hop]
      simp [hmean]

section Classes

variable (plan) (hordered : ∀ record ∈ records, record.IsOrdered)

include hordered

theorem eraseDups_eq_groupTuples :
    (records.map (Record.tuple plan.group)).eraseDups = plan.groupTuples records := by
  apply eraseDups_eq_distinctTuples
  intro tuple htuple
  obtain ⟨record, hrecord, rfl⟩ := List.mem_map.1 htuple
  exact (hordered record hrecord).tuple plan.group

/-- Each tuple is that of a record, and equality with it is sameness. -/
theorem exists_of_mem_groupTuples {tuple : List FieldValue}
    (h : tuple ∈ plan.groupTuples records) :
    (∃ first ∈ records, first.tuple plan.group = tuple) ∧
      ∀ other : List FieldValue, (other == tuple) = sameTuple other tuple := by
  obtain ⟨first, hfirst, rfl⟩ := List.mem_map.1 (mem_of_mem_eraseDupsBy sameTuple_equiv h)
  exact ⟨⟨first, hfirst, rfl⟩, fun other => beq_tuple ((hordered first hfirst).tuple plan.group)⟩

/-- The tuples are different and come in the order in which they are first seen. -/
theorem pairwise_groupTuples : (plan.groupTuples records).Pairwise fun a b =>
    (a == b) = false ∧ records.findIdx (fun record => record.tuple plan.group == a) <
      records.findIdx (fun record => record.tuple plan.group == b) := by
  have distinct : (plan.groupTuples records).Pairwise fun a b => sameTuple a b = false :=
    pairwise_eraseDupsBy sameTuple_equiv
  have places : (plan.groupTuples records).Pairwise fun a b =>
      (records.map (Record.tuple plan.group)).findIdx (sameTuple · a) <
        (records.map (Record.tuple plan.group)).findIdx (sameTuple · b) :=
    pairwise_findIdx_eraseDupsBy sameTuple_equiv
  refine (distinct.and places).imp_of_mem fun {a b} ha hb h => ?_
  have hequal := (exists_of_mem_groupTuples plan hordered ha).2
  have hequal' := (exists_of_mem_groupTuples plan hordered hb).2
  simp only [hequal, hequal']
  simpa only [List.findIdx_map, Function.comp_def] using h

theorem beq_getElem_groupTuples (record : Record) (i : Fin (plan.groupTuples records).length) :
    (record.tuple plan.group == (plan.groupTuples records)[i]) =
      sameTuple (record.tuple plan.group) (plan.groupTuples records)[i] :=
  (exists_of_mem_groupTuples plan hordered (List.getElem_mem i.isLt)).2 _

/-- Each record has one of the tuples. -/
theorem existsUnique_groupTuples {record : Record} (h : record ∈ records) :
    ∃! i : Fin (plan.groupTuples records).length,
      (record.tuple plan.group == (plan.groupTuples records)[i]) = true := by
  have equal := beq_getElem_groupTuples plan hordered record
  obtain ⟨tuple, htuple, hsame⟩ := exists_mem_eraseDupsBy sameTuple_equiv
    (List.mem_map.2 ⟨record, h, rfl⟩ : record.tuple plan.group ∈ records.map _)
  obtain ⟨n, hn, rfl⟩ := List.mem_iff_getElem.1 htuple
  refine ⟨⟨n, hn⟩, (equal ⟨n, hn⟩).trans hsame, fun j hj => ?_⟩
  have alike := sameTuple_equiv.trans (sameTuple_equiv.symm ((equal j).symm.trans hj)) hsame
  have distinct : (plan.groupTuples records).Pairwise fun a b => sameTuple a b = false :=
    pairwise_eraseDupsBy sameTuple_equiv
  rw [List.pairwise_iff_getElem] at distinct
  apply Fin.ext
  rcases Nat.lt_trichotomy j n with hlt | heq | hgt
  · have := distinct j n j.isLt hn hlt
    rw [Bool.eq_false_iff] at this
    contradiction
  · exact heq
  · have := distinct n j hn j.isLt hgt
    rw [Bool.eq_false_iff] at this
    exact absurd (sameTuple_equiv.symm alike) this

/-- Records have one tuple in common when they agree on the group fields. -/
theorem exists_groupTuples_iff {a b : Record} (ha : a ∈ records) (hb : b ∈ records) :
    (∃ i : Fin (plan.groupTuples records).length,
      (a.tuple plan.group == (plan.groupTuples records)[i]) = true ∧
        (b.tuple plan.group == (plan.groupTuples records)[i]) = true) ↔
      ∀ ref ∈ plan.group, (a.cell ref == b.cell ref) = true := by
  have equal := beq_getElem_groupTuples plan hordered
  have agree : (a.tuple plan.group == b.tuple plan.group) =
      sameTuple (a.tuple plan.group) (b.tuple plan.group) :=
    beq_tuple ((hordered b hb).tuple plan.group)
  rw [← beq_tuple_iff]
  simp only [equal, agree]
  constructor
  · rintro ⟨i, hai, hbi⟩
    exact sameTuple_equiv.trans hai (sameTuple_equiv.symm hbi)
  · intro h
    obtain ⟨i, hai, -⟩ := existsUnique_groupTuples plan hordered ha
    have hai := (equal a i).symm.trans hai
    exact ⟨i, hai, sameTuple_equiv.trans (sameTuple_equiv.symm h) hai⟩

end Classes

/-- The rows of a grouped query stand for the classes of records that agree on the group fields, if
the limit lets through that many. -/
theorem aggregate_partitions {datasets : Datasets} {query : Json} {dataset : Dataset}
    {limit : Nat} {rows : List Row} (hparse : datasets.parse query = .ok plan)
    (hdataset : datasets plan.datasetId = some dataset)
    (hrecords : ∀ record ∈ records, record.WellFormed dataset.kind ∧ record.IsOrdered)
    (hlimit : (records.map (Record.tuple plan.group)).eraseDups.length ≤ limit)
    (h : plan.aggregate limit records = .ok rows) :
    plan.Partitions records (records.map (Record.tuple plan.group)).eraseDups rows := by
  have wellFormed := fun record hrecord => (hrecords record hrecord).1
  have ordered := fun record hrecord => (hrecords record hrecord).2
  rw [eraseDups_eq_groupTuples plan ordered] at hlimit ⊢
  obtain ⟨scope, hscope, resolved⟩ := resolved_of_ofJson hparse
  have hkind : scope.kind = dataset.kind := by
    rw [← resolved.datasetId, hdataset] at hscope
    simpa using hscope.symm
  rw [← hkind] at wellFormed hrecords
  have values : ∀ tuple ∈ plan.groupTuples records, ∀ spec ∈ plan.aggregates,
      spec.value? (plan.groupMembers records tuple) ≠ none := by
    by_contra missing
    simp only [not_forall, not_not, exists_prop] at missing
    obtain ⟨tuple, -, spec, -, -, failed⟩ :=
      aggregate_eq_error resolved.groupFits wellFormed hlimit missing
    rw [h] at failed
    contradiction
  rw [aggregate_eq_ok resolved.groupFits wellFormed hlimit values] at h
  cases h
  have classes := pairwise_groupTuples plan ordered
  exact {
    distinct := classes.imp And.left
    firstSeen := classes.imp And.right
    covered := fun record => existsUnique_groupTuples plan ordered
    together := fun a ha b hb => exists_groupTuples_iff plan ordered ha hb
    rows := by
      rw [List.forall₂_map_right_iff, List.forall₂_same]
      intro tuple htuple
      obtain ⟨⟨first, hfirst, rfl⟩, equal⟩ := exists_of_mem_groupTuples plan ordered htuple
      simp only [equal]
      refine describes_rowOf resolved (fun member hmember => ?_) (fun member hmember => ?_) ?_
        (values _ htuple)
      · exact hrecords member (List.mem_filter.1 hmember).1
      · rw [equal]
        exact (List.mem_filter.1 hmember).2
      · exact List.ne_nil_of_mem (List.mem_filter.2 ⟨hfirst, sameTuple_equiv.refl _⟩) }

end QueryPlan

/-- Departments and audits, with the number of averages, the best of them and their sum. -/
def sampleGrouping : Json :=
  .object [("FILTER", .object []),
    ("OPTIONS", .object [("COLUMNS", .array [.string "cs_dept", .string "top"])]),
    ("TRANSFORM", .object [("APPLY", .array [
        .object [("sections", .object [("COUNT", .string "cs_avg")])],
        .object [("top", .object [("MAX", .string "cs_avg")])],
        .object [("total", .object [("SUM", .string "cs_avg")])]]),
      ("GROUP", .array [.string "cs_dept", .string "cs_audit"])])]

def samplePlan : QueryPlan where
  datasetId := "cs"
  filter := none
  columns := ["cs_dept", "top"]
  sort := {}
  group := [⟨"cs", .course .dept⟩, ⟨"cs", .course .audit⟩]
  aggregates := [⟨"sections", .count, ⟨"cs", .course .avg⟩⟩, ⟨"top", .max, ⟨"cs", .course .avg⟩⟩,
    ⟨"total", .sum, ⟨"cs", .course .avg⟩⟩]

theorem sampleGrouping_parse : sampleDatasets.parse sampleGrouping = .ok samplePlan := rfl

theorem sampleSection_isOrdered {avg audit : Float} {dept : String} (havg : avg.isNaN = false)
    (haudit : audit.isNaN = false) : (sampleSection avg audit dept).IsOrdered := by
  intro name value h
  have hmem := Entries.mem_of_find? h
  simp only [sampleSection, List.mem_cons, Prod.mk.injEq, List.not_mem_nil, or_false] at hmem
  rcases hmem with ⟨-, rfl⟩ | ⟨-, rfl⟩ | ⟨-, rfl⟩ | ⟨-, rfl⟩ | ⟨-, rfl⟩ | ⟨-, rfl⟩ | ⟨-, rfl⟩ |
    ⟨-, rfl⟩ | ⟨-, rfl⟩ | ⟨-, rfl⟩
  all_goals first | assumption | trivial

theorem sampleSections_ordered : ∀ record ∈ sampleSections, record.IsOrdered := by
  simp only [sampleSections, List.forall_mem_cons]
  refine ⟨?_, ?_, ?_, by simp⟩
  all_goals exact sampleSection_isOrdered (by decide) (by decide)

theorem QueryPlan.aggregate_partitions_sample : ∃ rows,
    sampleDatasets.parse sampleGrouping = .ok samplePlan ∧
      samplePlan.aggregate 2 sampleSections = .ok rows ∧ rows.length = 2 ∧
        samplePlan.Partitions sampleSections
          (sampleSections.map (Record.tuple samplePlan.group)).eraseDups rows := by
  have hrecords : ∀ record ∈ sampleSections, record.WellFormed .courses ∧ record.IsOrdered :=
    fun record hrecord =>
      ⟨sampleSections_wellFormed record hrecord, sampleSections_ordered record hrecord⟩
  have hlimit : (sampleSections.map (Record.tuple samplePlan.group)).eraseDups.length ≤ 2 := by
    decide
  obtain ⟨rows, hrows, hlength⟩ : ∃ rows, samplePlan.aggregate 2 sampleSections = .ok rows ∧
      rows.length = 2 := ⟨_, rfl, rfl⟩
  exact ⟨rows, sampleGrouping_parse, hrows, hlength,
    aggregate_partitions sampleGrouping_parse rfl hrecords hlimit hrows⟩

end CampusQuery
