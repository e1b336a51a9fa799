import Std.Data.TreeSet.Lemmas
import CampusQuery.Proofs.Query.Partition

/-!
The rows of groups. Main statement: on well-formed records every aggregate has a value, except a
mean that is out of range, and a row lists the key of its group and these values.
-/

namespace CampusQuery

theorem FieldValue.same_iff_code_eq (a b : FieldValue) : a.same b = true ↔ a.code = b.code :=
  code_eq_iff.symm

theorem countDistinct_eq (values : List FieldValue) :
    AggregateSpec.countDistinct values = (values.eraseDupsBy FieldValue.same).length := by
  let codes := Std.TreeSet.ofList (values.map FieldValue.code)
  have listed : codes.toList.Nodup :=
    Std.TreeSet.distinct_toList.imp fun hne heq => hne (Std.LawfulEqCmp.compare_eq_iff_eq.2 heq)
  have perm : codes.toList.Perm ((values.eraseDupsBy FieldValue.same).map FieldValue.code) := by
    apply (List.perm_ext_iff_of_nodup listed (nodup_map_eraseDupsBy FieldValue.same_iff_code_eq)).2
    intro code
    rw [Std.TreeSet.mem_toList, Std.TreeSet.mem_ofList, List.contains_iff_mem,
      mem_map_eraseDupsBy FieldValue.same_iff_code_eq]
  calc AggregateSpec.countDistinct values
    _ = codes.toList.length := Std.TreeSet.length_toList.symm
    _ = ((values.eraseDupsBy FieldValue.same).map FieldValue.code).length := perm.length_eq
    _ = (values.eraseDupsBy FieldValue.same).length := List.length_map _

theorem countDistinct_perm {values others : List FieldValue} (h : values.Perm others) :
    AggregateSpec.countDistinct values = AggregateSpec.countDistinct others := by
  have codes := perm_map_eraseDupsBy FieldValue.same_iff_code_eq h
  rw [countDistinct_eq, countDistinct_eq, ← List.length_map FieldValue.code, codes.length_eq,
    List.length_map]

namespace AggregateSpec

/-- The target is a field of the kind, of numbers where the operation wants numbers. -/
structure Fits (kind : SchemaKind) (spec : AggregateSpec) : Prop where
  kind : spec.target.field.kind = kind
  numeric : spec.op.requiresNumeric = true → spec.target.field.isNumeric = true

/-- The value over records that have the target field, unless a mean is out of range. -/
def value? (spec : AggregateSpec) (members : List Record) : Option FieldValue :=
  let xs := members.map (Record.numberOf spec.target)
  match spec.op with
  | .count => some (.number (doubleOfInt (countDistinct (members.map (Record.cell spec.target)))))
  | .max => some (.number (xs.foldl largerNumber (-infinity)))
  | .min => some (.number (xs.foldl smallerNumber infinity))
  | .sum => some (.number (xs.foldl (· + ·) 0.0))
  | .avg => (decimalMean? xs).map .number

variable {kind : SchemaKind} {spec : AggregateSpec} {members : List Record}

theorem targets_eq (hspec : spec.Fits kind) (h : ∀ record ∈ members, record.WellFormed kind) :
    spec.targets members = .ok (members.map (Record.cell spec.target)) :=
  mapM_eq_ok_of_forall fun record hrecord => (h record hrecord).valueOf_eq_cell hspec.kind

theorem numbers_eq (hspec : spec.Fits kind) (hop : spec.op.requiresNumeric = true)
    (h : ∀ record ∈ members, record.WellFormed kind) :
    spec.numbers members = .ok (members.map (Record.numberOf spec.target)) := by
  apply mapM_eq_ok_of_forall
  intro record hrecord
  have hvalue := (h record hrecord).valueOf_eq_cell hspec.kind
  have hcell := (h record hrecord).cell_eq_number hspec.kind (hspec.numeric hop)
  rw [hvalue, ok_bind, hcell]
  rfl

/-- What an aggregate over well-formed records comes to. -/
theorem compute_eq (hspec : spec.Fits kind) (h : ∀ record ∈ members, record.WellFormed kind) :
    spec.compute members = match spec.value? members with
      | some value => .ok value
      | none => .error (.meanOutOfRange spec) := by
  have targets := targets_eq hspec h
  have numbers := fun hop => numbers_eq hspec hop h
  unfold compute value?
  cases hop : spec.op with
  | count => simp [targets]
  | max => simp [numbers (by rw [hop]; rfl)]
  | min => simp [numbers (by rw [hop]; rfl)]
  | sum => simp [numbers (by rw [hop]; rfl)]
  | avg =>
    simp only [numbers (by rw [hop]; rfl), ok_bind]
    cases decimalMean? (members.map (Record.numberOf spec.target)) <;> rfl

end AggregateSpec

namespace QueryPlan

/-- Every group field and every aggregate is one of the kind. -/
structure GroupFits (kind : SchemaKind) (plan : QueryPlan) : Prop where
  group : ∀ ref ∈ plan.group, ref.field.kind = kind
  aggregates : ∀ spec ∈ plan.aggregates, spec.Fits kind

/-- The row of the records of a group with this tuple. -/
def rowOf (plan : QueryPlan) (tuple : List FieldValue) (members : List Record) : Row :=
  ⟨((plan.group.zip tuple).map fun (ref, value) => (ref.key, value)) ++
    plan.aggregates.map fun spec => (spec.name, (spec.value? members).getD default)⟩

variable {kind : SchemaKind} {plan : QueryPlan}

theorem row_eq_ok (bucket : Bucket) (hplan : plan.GroupFits kind)
    (h : ∀ record ∈ bucket.members, record.WellFormed kind)
    (values : ∀ spec ∈ plan.aggregates, spec.value? bucket.members ≠ none) :
    bucket.row plan.group plan.aggregates = .ok (plan.rowOf bucket.key bucket.members) := by
  have computed : (plan.aggregates.mapM fun spec =>
      (spec.compute bucket.members).map (spec.name, ·)) =
      .ok (plan.aggregates.map fun spec =>
        (spec.name, (spec.value? bucket.members).getD default)) := by
    apply mapM_eq_ok_of_forall
    intro spec hspec
    obtain ⟨value, hvalue⟩ := Option.ne_none_iff_exists'.1 (values spec hspec)
    rw [AggregateSpec.compute_eq (hplan.aggregates spec hspec) h, hvalue]
    rfl
  rw [Bucket.row, computed]
  rfl

theorem row_eq_error (bucket : Bucket) (hplan : plan.GroupFits kind)
    (h : ∀ record ∈ bucket.members, record.WellFormed kind)
    (missing : ∃ spec ∈ plan.aggregates, spec.value? bucket.members = none) :
    ∃ spec ∈ plan.aggregates, spec.value? bucket.members = none ∧
      bucket.row plan.group plan.aggregates = .error (.meanOutOfRange spec) := by
  have failing : ∃ spec ∈ plan.aggregates, ∃ e,
      (spec.compute bucket.members).map (spec.name, ·) = .error e := by
    obtain ⟨spec, hspec, hvalue⟩ := missing
    refine ⟨spec, hspec, .meanOutOfRange spec, ?_⟩
    rw [AggregateSpec.compute_eq (hplan.aggregates spec hspec) h, hvalue]
    rfl
  obtain ⟨spec, hspec, e, he, failed⟩ := exists_mapM_eq_error failing
  rw [AggregateSpec.compute_eq (hplan.aggregates spec hspec) h] at he
  cases hvalue : spec.value? bucket.members with
  | some value =>
    rw [hvalue] at he
    contradiction
  | none =>
    rw [hvalue] at he
    cases he
    exact ⟨spec, hspec, hvalue, by rw [Bucket.row, failed]; rfl⟩

/-- The tuples of the group fields, in the order in which they are first seen. -/
def groupTuples (plan : QueryPlan) (records : List Record) : List (List FieldValue) :=
  distinctTuples (records.map (Record.tuple plan.group))

def groupMembers (plan : QueryPlan) (records : List Record) (tuple : List FieldValue) :
    List Record :=
  records.filter fun record => sameTuple (record.tuple plan.group) tuple

/-- The group of a tuple. -/
def groupOf (plan : QueryPlan) (records : List Record) (tuple : List FieldValue) : Bucket :=
  ⟨tuple, plan.groupMembers records tuple⟩

section Aggregate

variable {limit : Nat} {records : List Record}

theorem aggregate_eq (limit : Nat) (hplan : plan.GroupFits kind)
    (h : ∀ record ∈ records, record.WellFormed kind) :
    plan.aggregate limit records =
      if limit < (plan.groupTuples records).length then .error (.resultTooLarge limit)
      else (plan.groupTuples records).mapM fun tuple =>
        (plan.groupOf records tuple).row plan.group plan.aggregates := by
  rw [aggregate, groupRecords_eq limit hplan.group h, groupTuples]
  split
  · rfl
  · rw [ok_bind, List.mapM_map]
    rfl

theorem wellFormed_members (h : ∀ record ∈ records, record.WellFormed kind)
    (tuple : List FieldValue) : ∀ record ∈ (plan.groupOf records tuple).members,
      record.WellFormed kind := fun record hrecord => h record (List.mem_filter.1 hrecord).1

/-- A mean out of range fails the query. -/
theorem aggregate_eq_error (hplan : plan.GroupFits kind)
    (h : ∀ record ∈ records, record.WellFormed kind)
    (within : (plan.groupTuples records).length ≤ limit)
    (missing : ∃ tuple ∈ plan.groupTuples records, ∃ spec ∈ plan.aggregates,
      spec.value? (plan.groupMembers records tuple) = none) :
    ∃ tuple ∈ plan.groupTuples records, ∃ spec ∈ plan.aggregates,
      spec.value? (plan.groupMembers records tuple) = none ∧
        plan.aggregate limit records = .error (.meanOutOfRange spec) := by
  rw [aggregate_eq limit hplan h, if_neg (Nat.not_lt.2 within)]
  have failing : ∃ tuple ∈ plan.groupTuples records, ∃ e,
      (plan.groupOf records tuple).row plan.group plan.aggregates = .error e := by
    obtain ⟨tuple, htuple, spec, hspec, hvalue⟩ := missing
    obtain ⟨first, -, -, he⟩ := row_eq_error (plan.groupOf records tuple) hplan
      (wellFormed_members h tuple) ⟨spec, hspec, hvalue⟩
    exact ⟨tuple, htuple, _, he⟩
  obtain ⟨tuple, htuple, e, he, failed⟩ := exists_mapM_eq_error failing
  by_cases values : ∀ spec ∈ plan.aggregates, spec.value? (plan.groupMembers records tuple) ≠ none
  · rw [row_eq_ok (plan.groupOf records tuple) hplan (wellFormed_members h tuple) values] at he
    contradiction
  · simp only [not_forall, not_not, exists_prop] at values
    obtain ⟨spec, hspec, hvalue, hrow⟩ :=
      row_eq_error (plan.groupOf records tuple) hplan (wellFormed_members h tuple) values
    rw [hrow] at he
    cases he
    exact ⟨tuple, htuple, spec, hspec, hvalue, failed⟩

theorem aggregate_eq_ok (hplan : plan.GroupFits kind)
    (h : ∀ record ∈ records, record.WellFormed kind)
    (within : (plan.groupTuples records).length ≤ limit)
    (values : ∀ tuple ∈ plan.groupTuples records, ∀ spec ∈ plan.aggregates,
      spec.value? (plan.groupMembers records tuple) ≠ none) :
    plan.aggregate limit records = .ok ((plan.groupTuples records).map fun tuple =>
      plan.rowOf tuple (plan.groupMembers records tuple)) := by
  rw [aggregate_eq limit hplan h, if_neg (Nat.not_lt.2 within)]
  exact mapM_eq_ok_of_forall fun tuple htuple =>
    row_eq_ok (plan.groupOf records tuple) hplan (wellFormed_members h tuple)
      (values tuple htuple)

end Aggregate

end QueryPlan

end CampusQuery
