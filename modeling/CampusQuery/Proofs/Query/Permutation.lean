import CampusQuery.Proofs.Number.Shortest
import CampusQuery.Proofs.Query.Congruence
import CampusQuery.Proofs.Query.Limit
import CampusQuery.Proofs.Query.Listing
import CampusQuery.Proofs.Query.Mention

/-!
Answers do not depend on the order of the records, as long as aggregates count, or take the largest
or the smallest value. Main statement: on datasets with the same records in another order a query
fails for the same reason or gives the same rows in another order, with equal sort keys at each
place.
-/

namespace CampusQuery

theorem Record.IsOrdered.isNaN_numberOf {record : Record} (h : record.IsOrdered)
    (ref : FieldRef) : (record.numberOf ref).isNaN = false := by
  have ordered := h.cell ref
  rw [Record.numberOf]
  cases hcell : record.cell ref with
  | number x =>
    rw [hcell] at ordered
    exact ordered
  | text s =>
    change (0.0 : Float).isNaN = false
    decide

namespace AggregateSpec

/-- The values of the operations whose result does not depend on the order of the records. -/
def IsUnordered (spec : AggregateSpec) : Prop :=
  spec.op = .count ∨ spec.op = .max ∨ spec.op = .min

variable {spec : AggregateSpec} {xs ys : List Record}

theorem alike_extreme {place : Float → Int} {pick : Float → Float → Float} {start : Float}
    (hpick : PicksBy place pick) (hstart : start.isNaN = false)
    (hplace : ∀ a b, place a = place b → rankOf a = rankOf b) {as bs : List Float}
    (has : ∀ a ∈ as, a.isNaN = false) (h : as.Perm bs) :
    Alike (as.foldl pick start) (bs.foldl pick start) := by
  have hbs : ∀ b ∈ bs, b.isNaN = false := fun b hb => has b (h.mem_iff.2 hb)
  have rank := hplace _ _ (hpick.place_foldl_perm hstart has h)
  exact .of_beq ((beq_iff_rankOf (hpick.foldl hstart has).1 (hpick.foldl hstart hbs).1).2 rank)

/-- The value of a group changes with the order of its records by the sign of a zero at most. -/
theorem exists_value?_perm (hspec : spec.IsUnordered)
    (hxs : ∀ record ∈ xs, record.IsOrdered) (h : xs.Perm ys) :
    ∃ v w, spec.value? xs = some v ∧ spec.value? ys = some w ∧ v.Alike w ∧ v.IsOrdered := by
  have numbers : ∀ x ∈ xs.map (Record.numberOf spec.target), x.isNaN = false := by
    intro x hx
    obtain ⟨record, hrecord, rfl⟩ := List.mem_map.1 hx
    exact (hxs record hrecord).isNaN_numberOf spec.target
  have perm := h.map (Record.numberOf spec.target)
  unfold value?
  rcases hspec with hop | hop | hop <;> simp only [hop]
  · rw [countDistinct_perm (h.map (Record.cell spec.target))]
    exact ⟨_, _, rfl, rfl, .refl _, isNaN_nearestDouble _ _ _⟩
  · refine ⟨_, _, rfl, rfl, alike_extreme picksBy_larger isNaN_neg_infinity ?_ numbers perm,
      (picksBy_larger.foldl isNaN_neg_infinity numbers).1⟩
    exact fun a b heq => heq
  · refine ⟨_, _, rfl, rfl, alike_extreme picksBy_smaller isNaN_infinity ?_ numbers perm,
      (picksBy_smaller.foldl isNaN_infinity numbers).1⟩
    exact fun a b heq => Int.neg_inj.1 heq

end AggregateSpec

namespace Row

/-- No cell holds a number that is none. -/
def IsOrdered (row : Row) : Prop :=
  ∀ cell ∈ row.cells, cell.2.IsOrdered

theorem IsOrdered.get? {row : Row} (h : row.IsOrdered) (key : String) (value : FieldValue)
    (hvalue : row.get? key = some value) : value.IsOrdered :=
  h (key, value) (Entries.mem_of_find? hvalue)

/-- The same columns with equal values; values compare as they do in filters. -/
def equal (a b : Row) : Bool :=
  a.cells == b.cells

end Row

/-- A sort does not show the order in which it was given its rows, except where rows tie. -/
theorem SortSpec.forall₂_sort_of_perm (spec : SortSpec) {rows rows' : List Row}
    (ordered : ∀ row ∈ rows, row.IsOrdered) (h : rows.Perm rows') :
    List.Forall₂ (fun a b => spec.compareRows a b = .eq) (spec.sort rows) (spec.sort rows') := by
  have ordered' : ∀ row ∈ rows', row.IsOrdered := fun row hrow => ordered row (h.mem_iff.2 hrow)
  -- Rows compare as in an order only when they have no NaN.
  let compared (a b : { row : Row // row.IsOrdered }) : Ordering := spec.compareRows a b
  have trans : Std.TransCmp compared := transCmp_compareRows (fun a => a.2.get?) spec
  have sorted : ∀ list : List { row : Row // row.IsOrdered },
      ∃ out : List { row : Row // row.IsOrdered },
        spec.sort (list.map Subtype.val) = out.map Subtype.val ∧ out.Perm list ∧
          out.Pairwise fun a b => (compared a b).isLE := by
    intro list
    unfold sort
    split
    · next unsorted =>
      refine ⟨list, rfl, .refl list, List.pairwise_of_forall fun a b => ?_⟩
      have tie : compared a b = .eq := by
        simp only [compared, compareRows, List.isEmpty_iff.1 unsorted]
        cases spec.direction <;> rfl
      rw [tie]
      rfl
    · have mapped : (stableSort compared list).map Subtype.val =
          stableSort spec.compareRows (list.map Subtype.val) := by
        apply map_stableSort
        intro a b
        rfl
      refine ⟨stableSort compared list, mapped.symm, stableSort_perm compared list, ?_⟩
      have all : list.Pairwise fun _ _ => True := List.pairwise_of_forall fun _ _ => trivial
      exact (pairwise_stableSort all).imp Precedes.isLE
  lift rows to List { row : Row // row.IsOrdered } using ordered
  lift rows' to List { row : Row // row.IsOrdered } using ordered'
  obtain ⟨out, hout, perm, hle⟩ := sorted rows
  obtain ⟨out', hout', perm', hle'⟩ := sorted rows'
  have lifted := (List.map_perm_map_iff Subtype.val_injective).1 h
  rw [hout, hout', List.forall₂_map_left_iff, List.forall₂_map_right_iff]
  exact forall₂_eq_of_perm ((perm.trans lifted).trans perm'.symm) hle hle'

namespace QueryPlan

/-- The rows of one list are those of the other in some order, and rows at the same place have equal
sort keys. -/
structure Reorders (plan : QueryPlan) (rows rows' : List Row) : Prop where
  perm : ∃ others, rows.Perm others ∧ List.Forall₂ (fun a b => a.equal b = true) others rows'
  keys : List.Forall₂ (Row.Ties plan.sort.keys) rows rows'

variable {plan : QueryPlan} {scope : Scope} {xs ys : List Record}

section Rows

variable (unordered : ∀ spec ∈ plan.aggregates, spec.IsUnordered)
  (hxs : ∀ record ∈ xs, record.IsOrdered) (h : xs.Perm ys)

include unordered

theorem not_lacksMean (spec : AggregateSpec) : ¬plan.LacksMean xs spec := by
  intro hmean
  rcases unordered spec hmean.listed with hop | hop | hop <;>
    exact absurd (hmean.average.symm.trans hop) (by decide)

include hxs h

/-- The rows of one group in either order. -/
theorem alike_rowOf {tuple tuple' : List FieldValue} (htuple : codeOf tuple = codeOf tuple') :
    (plan.rowOf tuple xs).Alike (plan.rowOf tuple' ys) := by
  have alike : List.Forall₂ FieldValue.Alike tuple tuple' :=
    (codeOf_eq_iff.1 htuple).imp fun _ _ => FieldValue.alike_of_same
  refine List.rel_append (alike_zip_key alike plan.group) ?_
  refine List.forall₂_map_left_iff.2 (List.forall₂_map_right_iff.2 (List.forall₂_same.2 ?_))
  intro spec hspec
  obtain ⟨v, w, hv, hw, hlike, -⟩ :=
    AggregateSpec.exists_value?_perm (unordered spec hspec) hxs h
  exact ⟨rfl, by rwa [hv, hw]⟩

theorem exists_answerRows_perm : ∃ others, (plan.answerRows xs).Perm others ∧
    List.Forall₂ Row.Alike others (plan.answerRows ys) := by
  unfold answerRows
  split
  · obtain ⟨tuples, perm, hcodes⟩ :=
      exists_perm_of_map_perm (distinctTuples_perm (h.map (Record.tuple plan.group)))
    refine ⟨_, perm.map _, ?_⟩
    rw [List.forall₂_map_left_iff, List.forall₂_map_right_iff]
    refine hcodes.imp fun tuple tuple' hcode => ?_
    have members : (plan.groupMembers xs tuple).Perm (plan.groupMembers ys tuple') := by
      have same : (fun record : Record => sameTuple (record.tuple plan.group) tuple) =
          fun record => sameTuple (record.tuple plan.group) tuple' := by
        funext record
        rw [Bool.eq_iff_iff, sameTuple_iff, sameTuple_iff, hcode]
      unfold groupMembers
      rw [same]
      exact h.filter _
    exact alike_rowOf unordered (fun record hrecord => hxs record (List.mem_filter.1 hrecord).1)
      members hcode
  · exact ⟨_, h.map _, List.forall₂_same.2 fun row _ => .refl row⟩

omit h in
theorem isOrdered_answerRows {row : Row} (hrow : row ∈ plan.answerRows xs) : row.IsOrdered := by
  intro cell hcell
  cases cell_of_mem_answerRows hrow hcell with
  | key name ref record hrecord => exact (hxs record hrecord).cell ref
  | aggregate spec hspec members sublist =>
    obtain ⟨v, -, hv, -, -, ordered⟩ := AggregateSpec.exists_value?_perm (unordered spec hspec)
      (fun record hrecord => hxs record (sublist.subset hrecord)) (.refl members)
    rw [hv]
    exact ordered
  | field name record hrecord entry hentry =>
    exact hxs record hrecord entry.1 entry.2
      (Entries.find?_of_mem record.ascending.nodup hentry)

end Rows

section Cut

variable {a b : Row}

/-- The row has a value for every column, and no cell with a number that is none. -/
structure Fills (plan : QueryPlan) (row : Row) : Prop where
  filled : ∀ column ∈ plan.columns, row.get? column ≠ none
  ordered : row.IsOrdered

theorem Fills.keyed (h : plan.Fills a) (listed : ∀ key ∈ plan.sort.keys, key ∈ plan.columns) :
    a.Keyed plan.sort.keys := by
  intro key hkey
  obtain ⟨value, hvalue⟩ := Option.ne_none_iff_exists'.1 (h.filled key (listed key hkey))
  exact ⟨value, hvalue, h.ordered.get? key value hvalue⟩

theorem Fills.get?_cut (h : plan.Fills a) {column : String} (hcolumn : column ∈ plan.columns) :
    (plan.cut a).get? column = a.get? column :=
  get?_of_project (project_eq_ok h.filled) hcolumn

/-- Rows that are alike are equal once they are cut. -/
theorem Fills.equal_cut (h : plan.Fills a) (hab : a.Alike b) :
    (plan.cut a).equal (plan.cut b) = true := by
  have alike : (plan.cut a).Alike (plan.cut b) := by
    refine List.forall₂_map_left_iff.2 (List.forall₂_map_right_iff.2 (List.forall₂_same.2 ?_))
    intro column hcolumn
    rcases rel_cases (hab.get?_rel column) with ⟨hnone, -⟩ | ⟨x, y, hx, hy, hlike⟩
    · exact absurd hnone (h.filled column hcolumn)
    · exact ⟨rfl, by rwa [hx, hy]⟩
  apply Entries.Alike.beq_eq_true alike
  intro cell hcell
  obtain ⟨column, hcolumn, rfl⟩ := List.mem_map.1 hcell
  obtain ⟨value, hvalue⟩ := Option.ne_none_iff_exists'.1 (h.filled column hcolumn)
  rw [hvalue]
  exact h.ordered.get? column value hvalue

/-- Rows that tie in the sort have equal sort keys once they are cut. -/
theorem Fills.ties_cut (ha : plan.Fills a) (hb : plan.Fills b)
    (listed : ∀ key ∈ plan.sort.keys, key ∈ plan.columns)
    (tie : plan.sort.compareRows a b = .eq) :
    (plan.cut a).Ties plan.sort.keys (plan.cut b) := by
  rw [SortSpec.compareRows_eq_eq_iff (ha.keyed listed) (hb.keyed listed)] at tie
  intro key hkey
  rw [ha.get?_cut (listed key hkey), hb.get?_cut (listed key hkey)]
  exact tie key hkey

end Cut

/-- The steps after the filter do not show the order of the records. -/
theorem agree_format_of_perm (limit : Nat) (resolved : plan.Resolved scope)
    (unordered : ∀ spec ∈ plan.aggregates, spec.IsUnordered)
    (hxs : ∀ record ∈ xs, record.WellFormed scope.kind ∧ record.IsOrdered) (h : xs.Perm ys) :
    Agree plan.Reorders (plan.format limit xs) (plan.format limit ys) := by
  have hys : ∀ record ∈ ys, record.WellFormed scope.kind ∧ record.IsOrdered :=
    fun record hrecord => hxs record (h.mem_iff.2 hrecord)
  have wellFormed := fun record hrecord => (hxs record hrecord).1
  have wellFormed' := fun record hrecord => (hys record hrecord).1
  have ordered := fun record hrecord => (hxs record hrecord).2
  have ordered' := fun record hrecord => (hys record hrecord).2
  have count : plan.rowCount xs = plan.rowCount ys := rowCount_perm h
  rcases plan.checkColumns_cases with ⟨column, -, failed⟩ | ⟨columns, passed⟩
  · rw [format, format, failed]
    exact .error _
  by_cases beyond : limit < plan.rowCount xs
  · rw [format_eq limit resolved.groupFits passed wellFormed, if_pos beyond,
      format_eq limit resolved.groupFits passed wellFormed', if_pos (count ▸ beyond)]
    exact .error _
  have within := Nat.not_lt.1 beyond
  rw [format_eq_checked resolved wellFormed columns within (not_lacksMean unordered),
    format_eq_checked resolved wellFormed' columns (count ▸ within) (not_lacksMean unordered)]
  rcases plan.checkSortKeys_cases with ⟨key, -, failed⟩ | ⟨-, checked⟩
  · rw [failed]
    exact .error _
  rw [checked]
  have listed := checkSortKeys_eq_ok checked
  have fills : ∀ row ∈ plan.answerRows xs, plan.Fills row := fun row hrow =>
    ⟨fun _ => get?_answerRows resolved wellFormed columns hrow,
      isOrdered_answerRows unordered ordered hrow⟩
  have fills' : ∀ row ∈ plan.answerRows ys, plan.Fills row := fun row hrow =>
    ⟨fun _ => get?_answerRows resolved wellFormed' columns hrow,
      isOrdered_answerRows unordered ordered' hrow⟩
  obtain ⟨others, perm, alike⟩ := exists_answerRows_perm unordered ordered h
  have aligned := forall₂_sort plan.sort alike
  have sorted := plan.sort.forall₂_sort_of_perm (fun row hrow => (fills row hrow).ordered) perm
  refine .ok ⟨⟨(plan.sort.sort others).map plan.cut, ?_, ?_⟩, ?_⟩
  · exact (((sort_perm _ _).trans perm).trans (sort_perm _ _).symm).map plan.cut
  · rw [List.forall₂_map_left_iff, List.forall₂_map_right_iff]
    refine forall₂_imp_of_mem aligned fun row hrow _ _ hlike => ?_
    exact (fills row (perm.mem_iff.2 ((sort_perm _ _).mem_iff.1 hrow))).equal_cut hlike
  · rw [List.forall₂_map_left_iff, List.forall₂_map_right_iff]
    have ties : List.Forall₂ (fun a b => plan.sort.compareRows a b = .eq)
        (plan.sort.sort (plan.answerRows xs)) (plan.sort.sort (plan.answerRows ys)) :=
      forall₂_trans sorted aligned fun a b c tie hlike =>
        (compareRows_congr plan.sort (.refl a) hlike).symm.trans tie
    refine forall₂_imp_of_mem ties fun row hrow row' hrow' tie => ?_
    exact (fills row ((sort_perm _ _).mem_iff.1 hrow)).ties_cut
      (fills' row' ((sort_perm _ _).mem_iff.1 hrow')) listed tie

/-- Running a plan on datasets with the same records in another order. -/
theorem agree_execute_of_perm {datasets datasets' : Datasets} {d e : Dataset} (limit : Nat)
    (resolved : plan.Resolved scope) (unordered : ∀ spec ∈ plan.aggregates, spec.IsUnordered)
    (hd : datasets plan.datasetId = some d) (he : datasets' plan.datasetId = some e)
    (records : ∀ record ∈ d.records, record.WellFormed scope.kind ∧ record.IsOrdered)
    (perm : d.records.Perm e.records) :
    Agree (fun result result' : ExecutionResult => plan.Reorders result.rows result'.rows)
      (plan.execute datasets limit) (plan.execute datasets' limit) := by
  obtain ⟨keeps, -, hmatching⟩ := exists_keeps resolved
  have matched := hmatching d.records fun record hrecord => (records record hrecord).1
  have matched' := hmatching e.records fun record hrecord =>
    (records record (perm.mem_iff.2 hrecord)).1
  have kept : ∀ record ∈ d.records.filter keeps,
      record.WellFormed scope.kind ∧ record.IsOrdered :=
    fun record hrecord => records record (List.mem_filter.1 hrecord).1
  have formatted := agree_format_of_perm limit resolved unordered kept (perm.filter keeps)
  rw [execute, execute, hd, he]
  simp only [matched, matched', ok_bind]
  exact formatted.bind fun rows rows' hrows => .ok hrows

end QueryPlan

/-- The order of the records of a dataset does not matter to a query without sums and means: the
plan fails for the same reason, or it gives the same rows in some order. So do all steps from the
document on if the two datasets are of one kind. -/
theorem Datasets.query_reorders {datasets datasets' : Datasets} {query : Json} {plan : QueryPlan}
    {d e : Dataset} (limit : Nat) (hparse : datasets.parse query = .ok plan)
    (unordered : ∀ spec ∈ plan.aggregates, spec.IsUnordered)
    (hd : datasets plan.datasetId = some d) (he : datasets' plan.datasetId = some e)
    (built : d.Built) (ordered : ∀ record ∈ d.records, record.IsOrdered)
    (perm : d.records.Perm e.records) :
    Agree (fun result result' : ExecutionResult => plan.Reorders result.rows result'.rows)
        (plan.execute datasets limit) (plan.execute datasets' limit) ∧
      (d.kind = e.kind →
        Agree plan.Reorders (datasets.query limit query) (datasets'.query limit query)) := by
  obtain ⟨scope, hscope, plans⟩ := QueryPlan.ofJson_iff.1 hparse
  have resolved := plans.resolved
  have hid := resolved.datasetId
  have hkind : scope.kind = d.kind := by
    rw [← hid, hd] at hscope
    simpa using hscope.symm
  have records : ∀ record ∈ d.records, record.WellFormed scope.kind ∧ record.IsOrdered :=
    fun record hrecord =>
      ⟨hkind ▸ (Dataset.built_iff.1 built).2 record hrecord, ordered record hrecord⟩
  have executed := QueryPlan.agree_execute_of_perm limit resolved unordered hd he records perm
  refine ⟨executed, fun same => ?_⟩
  have kinds : ∀ id, query.datasetId? = some id →
      (datasets id).map Dataset.kind = (datasets' id).map Dataset.kind := by
    intro id named
    obtain rfl : scope.datasetId = id := Option.some.inj (plans.datasetId?_eq.symm.trans named)
    rw [← hid, hd, he, Option.map_some, Option.map_some, same]
  have hparse' : datasets'.parse query = .ok plan := by
    rw [← hparse]
    exact (QueryPlan.ofJson_congr kinds).symm
  rw [Datasets.query, Datasets.query, hparse, hparse', ok_bind, ok_bind]
  exact executed.bind fun result result' hrows => .ok hrows

/-- The sample sections from the last to the first. -/
def sampleReversal : Datasets := fun id =>
  if id = "cs" then some ⟨"cs", .courses, sampleSections.reverse⟩ else none

/-- The best average of each department, from the best down. -/
def sampleBest : Json :=
  .object [("FILTER", .object []),
    ("OPTIONS", .object [("COLUMNS", .array [.string "cs_dept", .string "top"]),
      ("ORDER", .object [("dir", .string "DESCENDING"), ("keys", .array [.string "top"])])]),
    ("TRANSFORM", .object [("GROUP", .array [.string "cs_dept"]),
      ("APPLY", .array [.object [("top", .object [("MAX", .string "cs_avg")])]])])]

theorem Datasets.query_reorders_sample : ∃ plan rows rows',
    sampleDatasets.parse sampleBest = .ok plan ∧
      sampleDatasets.query 2 sampleBest = .ok rows ∧
        sampleReversal.query 2 sampleBest = .ok rows' ∧ rows.length = 2 ∧
          plan.Reorders rows rows' := by
  obtain ⟨plan, hparse, hdataset, haggregates⟩ : ∃ plan,
      sampleDatasets.parse sampleBest = .ok plan ∧ plan.datasetId = "cs" ∧
        plan.aggregates.map AggregateSpec.op = [.max] := ⟨_, rfl, rfl, rfl⟩
  have count : (sampleDatasets.query 2 sampleBest).toOption.map List.length = some 2 := by
    decide +kernel
  have unordered : ∀ spec ∈ plan.aggregates, spec.IsUnordered := by
    intro spec hspec
    have hop : spec.op ∈ plan.aggregates.map AggregateSpec.op := List.mem_map_of_mem hspec
    rw [haggregates, List.mem_singleton] at hop
    exact .inr (.inl hop)
  have hd : sampleDatasets plan.datasetId = some ⟨"cs", .courses, sampleSections⟩ := by
    rw [hdataset]
    rfl
  have he : sampleReversal plan.datasetId = some ⟨"cs", .courses, sampleSections.reverse⟩ := by
    rw [hdataset]
    rfl
  have reordered := (Datasets.query_reorders 2 hparse unordered hd he
    (sampleDatasets_built "cs" _ (hdataset ▸ hd)) sampleSections_ordered
    (List.reverse_perm sampleSections).symm).2 rfl
  generalize sampleDatasets.query 2 sampleBest = result, sampleReversal.query 2 sampleBest =
    result' at *
  cases reordered with
  | error e => contradiction
  | ok reorders => exact ⟨plan, _, _, hparse, rfl, rfl, Option.some.inj count, reorders⟩

end CampusQuery
