import Std.Data.TreeMap.Lemmas
import CampusQuery.Proofs.Data.Lists
import CampusQuery.Proofs.Data.Record
import CampusQuery.Proofs.Data.Value

/-!
The groups of records. Main statement: the groups are the classes of records with the same key, in
the order in which the keys are first seen, unless there are more keys than the limit.
-/

namespace CampusQuery

/-- Values that are the same one by one. -/
def sameTuple (as bs : List FieldValue) : Bool :=
  as.isEqv bs FieldValue.same

theorem sameTuple_iff {as bs : List FieldValue} :
    sameTuple as bs = true ↔ codeOf as = codeOf bs := by
  rw [codeOf_eq_iff, sameTuple]
  induction as generalizing bs with
  | nil => cases bs <;> simp
  | cons a as ih => cases bs <;> simp [List.isEqv, ih]

theorem sameTuple_equiv : Equivalence fun as bs => sameTuple as bs = true :=
  equivalence_of_key fun _ _ => sameTuple_iff

/-- The different tuples, in the order in which they are first seen. -/
def distinctTuples (tuples : List (List FieldValue)) : List (List FieldValue) :=
  tuples.eraseDupsBy sameTuple

theorem distinctTuples_perm {tuples others : List (List FieldValue)} (h : tuples.Perm others) :
    ((distinctTuples tuples).map codeOf).Perm ((distinctTuples others).map codeOf) :=
  perm_map_eraseDupsBy (fun _ _ => sameTuple_iff) h

namespace Buckets

/-- The groups of the records seen so far: the codes tell the keys apart, and each code has the
records whose key has it. -/
structure Hold (key : Record → List FieldValue) (records : List Record) (buckets : Buckets) :
    Prop where
  keys : buckets.keys.reverse = distinctTuples (records.map key)
  members : ∀ code, buckets.members[code]? =
    (if (records.filter fun record => codeOf (key record) = code) = [] then none
      else some (records.filter fun record => codeOf (key record) = code).reverse)
  size : buckets.members.size = buckets.keys.length

variable {key : Record → List FieldValue} {records : List Record} {buckets : Buckets}
  {limit : Nat}

theorem hold_empty : Hold key [] empty where
  keys := rfl
  members code := by simp [empty]
  size := rfl

/-- Whether a group is there shows in the tuples before. -/
theorem any_sameTuple_iff {record : Record} :
    (records.map key).any (sameTuple (key record)) = true ↔
      (records.filter fun other => codeOf (key other) = codeOf (key record)) ≠ [] := by
  rw [List.any_eq_true, ne_eq, List.filter_eq_nil_iff]
  simp only [List.mem_map, sameTuple_iff, decide_eq_true_eq]
  constructor
  · rintro ⟨-, ⟨other, hother, rfl⟩, hcode⟩ none
    exact none other hother hcode.symm
  · intro some
    by_contra none
    exact some fun other hother hcode => none ⟨_, ⟨other, hother, rfl⟩, hcode.symm⟩

theorem filter_code_of_unseen {record : Record}
    (unseen : (records.map key).any (sameTuple (key record)) = false) :
    (records.filter fun other => codeOf (key other) = codeOf (key record)) = [] := by
  by_contra filled
  rw [any_sameTuple_iff.2 filled] at unseen
  contradiction

theorem Hold.members_of_unseen (h : Hold key records buckets) {record : Record}
    (unseen : (records.map key).any (sameTuple (key record)) = false) :
    buckets.members[codeOf (key record)]? = none := by
  rw [h.members, if_pos (filter_code_of_unseen unseen)]

theorem filter_code_concat (record : Record) (code : String) :
    ((records ++ [record]).filter fun other => codeOf (key other) = code) =
      (records.filter fun other => codeOf (key other) = code) ++
        if codeOf (key record) = code then [record] else [] := by
  rw [List.filter_append]
  by_cases h : codeOf (key record) = code <;> simp [h]

/-- The members once the record stands in front of those that its code had. -/
theorem Hold.members_insert (h : Hold key records buckets) (record : Record) (code : String) :
    (buckets.members.insert (codeOf (key record))
        (record :: (records.filter fun other =>
          codeOf (key other) = codeOf (key record)).reverse))[code]? =
      if ((records ++ [record]).filter fun other => codeOf (key other) = code) = [] then none
      else some ((records ++ [record]).filter fun other => codeOf (key other) = code).reverse := by
  rw [Std.TreeMap.getElem?_insert, filter_code_concat, h.members]
  simp only [Std.LawfulEqCmp.compare_eq_iff_eq]
  by_cases hcode : codeOf (key record) = code
  · subst hcode
    simp
  · simp [hcode]

/-- A record whose key was seen goes into its group. -/
theorem Hold.add_seen (h : Hold key records buckets) (limit : Nat) {record : Record}
    (seen : (records.map key).any (sameTuple (key record)) = true) :
    ∃ after, buckets.add limit (key record) record = .ok after ∧
      Hold key (records ++ [record]) after := by
  have filled := any_sameTuple_iff.1 seen
  have members := h.members (codeOf (key record))
  rw [if_neg filled] at members
  refine ⟨_, by rw [Buckets.add, members], ?_⟩
  refine { keys := ?_, members := h.members_insert record, size := ?_ }
  · rw [List.map_append, List.map_singleton, distinctTuples, eraseDupsBy_concat sameTuple_equiv,
      if_pos seen]
    exact h.keys
  · have inside : buckets.members.contains (codeOf (key record)) = true := by
      rw [Std.TreeMap.contains_eq_isSome_getElem?, members]
      rfl
    rw [Std.TreeMap.size_insert, if_pos inside, h.size]

/-- A record with a new key begins a group. -/
theorem Hold.add_new (h : Hold key records buckets) {record : Record}
    (unseen : (records.map key).any (sameTuple (key record)) = false)
    (room : buckets.keys.length < limit) :
    ∃ after, buckets.add limit (key record) record = .ok after ∧
      Hold key (records ++ [record]) after := by
  have empty := filter_code_of_unseen unseen
  have members := h.members_of_unseen unseen
  have fits : ¬limit ≤ buckets.members.size := by
    rw [h.size]
    omega
  refine ⟨_, by rw [Buckets.add, members, if_neg fits], ?_⟩
  refine { keys := ?_, members := ?_, size := ?_ }
  · rw [List.map_append, List.map_singleton, distinctTuples, eraseDupsBy_concat sameTuple_equiv,
      unseen, List.reverse_cons, h.keys]
    rfl
  · intro code
    have inserted := h.members_insert record code
    rwa [empty] at inserted
  · have outside : buckets.members.contains (codeOf (key record)) = false := by
      rw [Std.TreeMap.contains_eq_isSome_getElem?, members]
      rfl
    rw [Std.TreeMap.size_insert, outside, h.size, List.length_cons]
    rfl

/-- A record with a new key is too much when there are as many groups as the limit. -/
theorem Hold.add_full (h : Hold key records buckets) {record : Record}
    (unseen : (records.map key).any (sameTuple (key record)) = false)
    (full : limit ≤ buckets.keys.length) :
    buckets.add limit (key record) record = .error (.resultTooLarge limit) := by
  rw [Buckets.add, h.members_of_unseen unseen, if_pos]
  rw [h.size]
  exact full

theorem Hold.length_keys (h : Hold key records buckets) :
    buckets.keys.length = (distinctTuples (records.map key)).length := by
  rw [← h.keys, List.length_reverse]

theorem distinctTuples_concat (tuples : List (List FieldValue)) (tuple : List FieldValue) :
    distinctTuples (tuples ++ [tuple]) = if tuples.any (sameTuple tuple) then distinctTuples tuples
      else distinctTuples tuples ++ [tuple] :=
  eraseDupsBy_concat sameTuple_equiv tuple

/-- The loop over the records keeps the groups. The induction takes the last record off, since the
groups are those of the records seen so far. -/
theorem foldlM_add_ok (h : (distinctTuples (records.map key)).length ≤ limit) :
    ∃ buckets, records.foldlM (fun buckets record => add limit (key record) record buckets) empty =
      .ok buckets ∧ Hold key records buckets := by
  induction records using List.reverseRecOn with
  | nil => exact ⟨empty, rfl, hold_empty⟩
  | append_singleton records record ih =>
    rw [List.map_append, List.map_singleton, distinctTuples_concat] at h
    cases seen : (records.map key).any (sameTuple (key record)) with
    | true =>
      rw [seen, if_pos rfl] at h
      obtain ⟨buckets, hbuckets, hold⟩ := ih h
      obtain ⟨after, hafter, holds⟩ := hold.add_seen limit seen
      exact ⟨after, by simp [List.foldlM_append, hbuckets, hafter], holds⟩
    | false =>
      rw [seen, if_neg Bool.false_ne_true, List.length_append, List.length_singleton] at h
      obtain ⟨buckets, hbuckets, hold⟩ := ih (by omega)
      have count := hold.length_keys
      obtain ⟨after, hafter, holds⟩ := hold.add_new seen (by omega : buckets.keys.length < limit)
      exact ⟨after, by simp [List.foldlM_append, hbuckets, hafter], holds⟩

theorem foldlM_add_error (h : limit < (distinctTuples (records.map key)).length) :
    records.foldlM (fun buckets record => add limit (key record) record buckets) empty =
      .error (.resultTooLarge limit) := by
  induction records using List.reverseRecOn with
  | nil => contradiction
  | append_singleton records record ih =>
    by_cases before : limit < (distinctTuples (records.map key)).length
    · rw [List.foldlM_append, ih before, error_bind]
    · obtain ⟨buckets, hbuckets, hold⟩ :=
        foldlM_add_ok (by omega : (distinctTuples (records.map key)).length ≤ limit)
      have count := hold.length_keys
      rw [List.map_append, List.map_singleton, distinctTuples_concat] at h
      cases unseen : (records.map key).any (sameTuple (key record)) with
      | true =>
        rw [unseen, if_pos rfl] at h
        contradiction
      | false =>
        rw [unseen, if_neg Bool.false_ne_true, List.length_append, List.length_singleton] at h
        have full := hold.add_full unseen (by omega : limit ≤ buckets.keys.length)
        simp [List.foldlM_append, hbuckets, full]

end Buckets

/-- The group of a tuple among the records. -/
def bucketOf (key : Record → List FieldValue) (records : List Record) (tuple : List FieldValue) :
    Bucket :=
  ⟨tuple, records.filter fun record => sameTuple (key record) tuple⟩

theorem Buckets.Hold.toList_eq {key : Record → List FieldValue} {records : List Record}
    {buckets : Buckets} (h : Buckets.Hold key records buckets) :
    buckets.toList = (distinctTuples (records.map key)).map (bucketOf key records) := by
  rw [Buckets.toList, h.keys]
  apply List.map_congr_left
  intro tuple htuple
  have same : (fun record => decide (codeOf (key record) = codeOf tuple)) =
      fun record => sameTuple (key record) tuple := by
    funext record
    rw [Bool.eq_iff_iff, decide_eq_true_eq, sameTuple_iff]
  have filled :
      (records.filter fun record => decide (codeOf (key record) = codeOf tuple)) ≠ [] := by
    obtain ⟨record, hrecord, rfl⟩ :=
      List.mem_map.1 (mem_of_mem_eraseDupsBy sameTuple_equiv htuple)
    exact List.ne_nil_of_mem (List.mem_filter.2 ⟨hrecord, by simp⟩)
  rw [Std.TreeMap.getD_eq_getD_getElem?, h.members, if_neg filled, Option.getD_some,
    List.reverse_reverse, same, bucketOf]

/-- Records are grouped by their tuples, unless there are more tuples than the limit. -/
theorem groupRecords_eq {kind : SchemaKind} {fields : List FieldRef} {records : List Record}
    (limit : Nat) (hfields : ∀ ref ∈ fields, ref.field.kind = kind)
    (hrecords : ∀ record ∈ records, record.WellFormed kind) :
    groupRecords limit fields records =
      if limit < (distinctTuples (records.map (Record.tuple fields))).length then
        .error (.resultTooLarge limit)
      else .ok ((distinctTuples (records.map (Record.tuple fields))).map
        (bucketOf (Record.tuple fields) records)) := by
  have keyed : ∀ record ∈ records, ∀ buckets : Buckets,
      (groupKey fields record >>= fun key => buckets.add limit key record) =
        buckets.add limit (record.tuple fields) record := by
    intro record hrecord buckets
    have hkey : groupKey fields record = .ok (record.tuple fields) :=
      mapM_eq_ok_of_forall fun ref href =>
        (hrecords record hrecord).valueOf_eq_cell (hfields ref href)
    rw [hkey, ok_bind]
  unfold groupRecords
  dsimp only
  rw [foldlM_congr keyed]
  split
  · next beyond => rw [Buckets.foldlM_add_error beyond, error_bind]
  · next within =>
    obtain ⟨buckets, hbuckets, hold⟩ := Buckets.foldlM_add_ok (Nat.le_of_not_lt within)
    rw [hbuckets, ok_bind, hold.toList_eq]
    rfl

end CampusQuery
