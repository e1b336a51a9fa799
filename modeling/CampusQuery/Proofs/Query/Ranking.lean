import CampusQuery.Proofs.Query.Encoding
import CampusQuery.Proofs.Query.Permutation
import CampusQuery.Proofs.Text.Bytes

/-!
Sorting rows of any shape. Main statement: the sorted rows are the given ones, ordered by the first
key on which two of them differ and else by their places, and the rows that a query sorts have no
cell that this order cannot place.
-/

namespace CampusQuery

/-- The order of cells: first a missing one, then numbers by value, then texts by their bytes. -/
inductive CellBelow : Option FieldValue → Option FieldValue → Prop where
  | missing (value : FieldValue) : CellBelow none (some value)
  | number {a b : Float} (h : a < b) : CellBelow (some (.number a)) (some (.number b))
  | kind (a : Float) (s : String) : CellBelow (some (.number a)) (some (.text s))
  | text {s t : String} (h : utf8 s < utf8 t) : CellBelow (some (.text s)) (some (.text t))

/-- Both cells are missing, or they have equal values. -/
abbrev CellLevel : Option FieldValue → Option FieldValue → Prop :=
  Option.Rel fun a b => (a == b) = true

theorem compareCells_eq_lt_iff {x y : Option FieldValue} :
    compareCells x y = .lt ↔ CellBelow x y := by
  constructor
  · intro h
    match x, y with
    | none, none => contradiction
    | none, some y => exact .missing y
    | some x, none => contradiction
    | some x, some y =>
      have below := FieldValue.compare_eq_lt_iff.1 h
      match x, y with
      | .number a, .number b => exact .number below
      | .number a, .text s => exact .kind a s
      | .text s, .number a => exact below.elim
      | .text s, .text t => exact .text (lt_iff_utf8_lt.1 below)
  · intro h
    cases h with
    | missing value => rfl
    | number h =>
      rw [compareCells, FieldValue.compare_eq_lt_iff]
      exact h
    | kind a s => rfl
    | text h =>
      rw [compareCells, FieldValue.compare_eq_lt_iff]
      exact lt_iff_utf8_lt.2 h

theorem compareCells_eq_eq_iff {x y : Option FieldValue}
    (hx : ∀ value, x = some value → value.IsOrdered)
    (hy : ∀ value, y = some value → value.IsOrdered) :
    compareCells x y = .eq ↔ CellLevel x y := by
  match x, y with
  | none, none => exact ⟨fun _ => .none, fun _ => rfl⟩
  | none, some y => exact ⟨fun h => by contradiction, fun h => by cases h⟩
  | some x, none => exact ⟨fun h => by contradiction, fun h => by cases h⟩
  | some x, some y =>
    rw [compareCells, FieldValue.compare_eq_eq_iff (hx x rfl) (hy y rfl)]
    constructor
    · exact fun h => Option.Rel.some h
    · intro h
      cases h with
      | some h => exact h

namespace Row

variable {keys : List String} {a b : Row}

/-- The rows do not differ on any key. -/
def Level (keys : List String) (a b : Row) : Prop :=
  ∀ key ∈ keys, CellLevel (a.get? key) (b.get? key)

/-- On the first key on which the rows differ the cell of `a` comes first. -/
def Below (keys : List String) (a b : Row) : Prop :=
  ∃ front key back, keys = front ++ key :: back ∧ a.Level front b ∧
    CellBelow (a.get? key) (b.get? key)

theorem below_cons_iff {key : String} : a.Below (key :: keys) b ↔
    CellBelow (a.get? key) (b.get? key) ∨
      CellLevel (a.get? key) (b.get? key) ∧ a.Below keys b := by
  constructor
  · rintro ⟨front, first, back, hkeys, level, below⟩
    cases front with
    | nil =>
      cases hkeys
      exact .inl below
    | cons other front =>
      cases hkeys
      obtain ⟨head, rest⟩ := List.forall_mem_cons.1 level
      exact .inr ⟨head, front, first, back, rfl, rest, below⟩
  · rintro (below | ⟨head, front, first, back, rfl, level, below⟩)
    · exact ⟨[], key, keys, rfl, by simp [Level], below⟩
    · exact ⟨key :: front, first, back, rfl, List.forall_mem_cons.2 ⟨head, level⟩, below⟩

section Compare

variable (ha : a.IsOrdered) (hb : b.IsOrdered)

include ha hb

theorem compareBy_eq_eq_iff_level : a.compareBy keys b = .eq ↔ a.Level keys b := by
  induction keys with
  | nil => simp [compareBy, Level]
  | cons key keys ih =>
    rw [compareBy, Ordering.then_eq_eq, ih, Level, Level, List.forall_mem_cons,
      compareCells_eq_eq_iff (ha.get? key) (hb.get? key)]

theorem compareBy_eq_lt_iff_below : a.compareBy keys b = .lt ↔ a.Below keys b := by
  induction keys with
  | nil => simp [compareBy, Below]
  | cons key keys ih =>
    rw [compareBy, Ordering.then_eq_lt, ih, below_cons_iff, compareCells_eq_lt_iff,
      compareCells_eq_eq_iff (ha.get? key) (hb.get? key)]

theorem compareBy_swap_of_isOrdered (keys : List String) :
    (a.compareBy keys b).swap = b.compareBy keys a := by
  have both : ∀ row ∈ [a, b], row.IsOrdered := by simp [ha, hb]
  have trans := transCmp_compareBy
    (fun (row : { row // row ∈ [a, b] }) key value => (both row.1 row.2).get? key value) keys
  exact (trans.eq_swap (a := ⟨b, by simp⟩) (b := ⟨a, by simp⟩)).symm

end Compare

end Row

namespace SortSpec

variable {spec : SortSpec} {a b : Row} {rows : List Row}

/-- The first row comes before the second in the direction of the sort. -/
def Ranks (spec : SortSpec) (a b : Row) : Prop :=
  match spec.direction with
  | .ascending => a.Below spec.keys b
  | .descending => b.Below spec.keys a

theorem compareRows_eq_eq_iff_level (ha : a.IsOrdered) (hb : b.IsOrdered) :
    spec.compareRows a b = .eq ↔ a.Level spec.keys b := by
  rw [← Row.compareBy_eq_eq_iff_level ha hb]
  unfold compareRows
  cases spec.direction with
  | ascending => rfl
  | descending => exact Ordering.swap_eq_eq

/-- On rows without a number that is none the comparison is total and transitive. -/
theorem transCmp_of_isOrdered (ordered : ∀ row ∈ rows, row.IsOrdered) (spec : SortSpec) :
    Std.TransCmp fun a b : { row // row ∈ rows } => spec.compareRows a.1 b.1 :=
  transCmp_compareRows (fun row key value => (ordered row.1 row.2).get? key value) spec

theorem compareRows_eq_lt_iff_ranks (ha : a.IsOrdered) (hb : b.IsOrdered) :
    spec.compareRows a b = .lt ↔ spec.Ranks a b := by
  unfold compareRows Ranks
  cases spec.direction with
  | ascending => exact Row.compareBy_eq_lt_iff_below ha hb
  | descending =>
    dsimp only
    rw [← Row.compareBy_eq_lt_iff_below hb ha, Row.compareBy_swap_of_isOrdered ha hb]

/-- The places that the rows of a list have before it is sorted, in the order of the sorted list. -/
structure Sorts (spec : SortSpec) (rows : List Row) (places : List (Fin rows.length)) : Prop where
  perm : places.Perm (List.finRange rows.length)
  sorted : spec.sort rows = places.map fun place => rows[place]
  ranked : places.Pairwise fun i j =>
    spec.Ranks rows[i] rows[j] ∨ Row.Level spec.keys rows[i] rows[j]
  stable : places.Pairwise fun i j => Row.Level spec.keys rows[i] rows[j] → i < j

theorem map_getElem_finRange (rows : List Row) :
    (List.finRange rows.length).map (fun place => rows[place]) = rows := by
  rw [← List.ofFn_eq_map]
  exact List.ofFn_getElem

theorem exists_sorts (ordered : ∀ row ∈ rows, row.IsOrdered) :
    ∃ places, spec.Sorts rows places := by
  have placed (i : Fin rows.length) : rows[i].IsOrdered := ordered _ (List.getElem_mem _)
  obtain ⟨places, perm, hsort, precedes, -⟩ := spec.exists_places fun i => (placed i).get?
  refine ⟨places, perm, ?_, precedes.imp fun {i j} h => ?_, precedes.imp fun {i j} h level => ?_⟩
  · rwa [map_getElem_finRange] at hsort
  · rw [Precedes, compareRows_eq_lt_iff_ranks (placed i) (placed j),
      compareRows_eq_eq_iff_level (placed i) (placed j)] at h
    exact h.imp_right And.left
  · rw [← compareRows_eq_eq_iff_level (placed i) (placed j)] at level
    rw [Precedes, level] at h
    obtain h | ⟨-, before⟩ := h
    · contradiction
    · exact before

theorem pairwise_sort (ordered : ∀ row ∈ rows, row.IsOrdered) :
    (spec.sort rows).Pairwise fun a b => (spec.compareRows a b).isLE := by
  have placed (i : Fin rows.length) : rows[i].IsOrdered := ordered _ (List.getElem_mem _)
  obtain ⟨places, -, hsort, precedes, -⟩ := spec.exists_places fun i => (placed i).get?
  rw [map_getElem_finRange] at hsort
  rw [hsort, List.pairwise_map]
  exact precedes.imp Precedes.isLE

/-- Sorted rows stay where they are: their places can be put in order in one way only. -/
theorem sort_eq_self (ordered : ∀ row ∈ rows, row.IsOrdered)
    (sorted : rows.Pairwise fun a b => (spec.compareRows a b).isLE) : spec.sort rows = rows := by
  have placed (i : Fin rows.length) : rows[i].IsOrdered := ordered _ (List.getElem_mem _)
  have trans := transCmp_compareRows (fun i => (placed i).get?) spec
  obtain ⟨places, perm, hsort, precedes, -⟩ := spec.exists_places fun i => (placed i).get?
  have inOrder : (List.finRange rows.length).Pairwise
      (Precedes (fun i j => spec.compareRows rows[i] rows[j]) (· < ·)) := by
    refine (List.pairwise_lt_finRange _).imp fun {i j} hlt => precedes_of_isLE ?_ hlt
    exact List.pairwise_iff_getElem.1 sorted i j i.isLt j.isLt hlt
  have unique : places = List.finRange rows.length :=
    List.Perm.eq_of_pairwise (fun i j _ _ hij hji => absurd hji (hij.asymm lt_asymm)) precedes
      inOrder perm
  rw [unique, map_getElem_finRange] at hsort
  exact hsort

theorem sort_sort (ordered : ∀ row ∈ rows, row.IsOrdered) :
    spec.sort (spec.sort rows) = spec.sort rows :=
  sort_eq_self (fun row hrow => ordered row ((QueryPlan.sort_perm spec rows).mem_iff.1 hrow))
    (pairwise_sort ordered)

end SortSpec

/-- Aggregates of finite numbers are numbers, if not finite ones. -/
theorem AggregateSpec.isOrdered_value? {spec : AggregateSpec} {members : List Record}
    {value : FieldValue} (finite : ∀ record ∈ members, record.IsFinite)
    (h : spec.value? members = some value) : value.IsOrdered := by
  have numbers := Record.IsFinite.numbers finite spec.target
  have ordered := fun x hx => isNaN_of_isFinite (numbers x hx)
  unfold value? at h
  cases hop : spec.op with
  | count =>
    simp only [hop] at h
    cases h
    exact isNaN_nearestDouble _ _ _
  | max =>
    simp only [hop] at h
    cases h
    exact (picksBy_larger.foldl isNaN_neg_infinity ordered).1
  | min =>
    simp only [hop] at h
    cases h
    exact (picksBy_smaller.foldl isNaN_infinity ordered).1
  | sum =>
    simp only [hop] at h
    cases h
    have start : (0.0 : Float).isNaN = false := by decide
    exact isNaN_foldl_add numbers start
  | avg =>
    simp only [hop] at h
    obtain ⟨mean, hmean, rfl⟩ := Option.map_eq_some_iff.1 h
    exact isNaN_of_isFinite (isFinite_decimalMean? hmean)

namespace QueryPlan

variable {plan : QueryPlan} {matched : List Record} {rows : List Row}

theorem isOrdered_answerRows_of_isFinite (finite : ∀ record ∈ matched, record.IsFinite) {row : Row}
    (hrow : row ∈ plan.answerRows matched) : row.IsOrdered := by
  intro cell hcell
  cases cell_of_mem_answerRows hrow hcell with
  | key name ref record hrecord => exact ((finite record hrecord).cell ref).isOrdered
  | aggregate spec hspec members sublist filled =>
    cases hvalue : spec.value? members with
    | none => exact trivial
    | some value =>
      exact AggregateSpec.isOrdered_value? (fun record h => finite record (sublist.subset h)) hvalue
  | field name record hrecord entry hentry => exact (finite record hrecord entry hentry).isOrdered

/-- The rows that a query sorts. -/
theorem isOrdered_fullRows {datasets : Datasets} {query : Json} {dataset : Dataset} {limit : Nat}
    (built : dataset.Built) (finite : dataset.IsFinite) (hparse : datasets.parse query = .ok plan)
    (hdataset : datasets plan.datasetId = some dataset)
    (hmatched : matching plan.filter dataset.records = .ok matched)
    (hrows : plan.fullRows limit matched = .ok rows) : ∀ row ∈ rows, row.IsOrdered := by
  obtain ⟨scope, there, resolved, hthere, fits⟩ := exists_dataset_of_parse hparse
  obtain rfl := Option.some.inj (hdataset.symm.trans hthere)
  have wellFormed := fits built
  obtain rfl := eq_filter_of_matching hmatched
  have kept : ∀ record ∈ dataset.records.filter plan.accepts, record ∈ dataset.records :=
    fun record hrecord => (List.mem_filter.1 hrecord).1
  obtain ⟨rfl, -⟩ := eq_answerRows_of_fullRows resolved.groupFits
    (fun record h => wellFormed record (kept record h)) hrows
  exact fun row => isOrdered_answerRows_of_isFinite fun record h => finite record (kept record h)

end QueryPlan

/-- Rows without a number that is none are sorted by the first key on which two of them differ, in
the direction that is asked for, and rows that differ on no key keep their order in both directions;
the columns of the rows may be missing or repeated, and values of one column may be numbers and
texts. On datasets of finite numbers all rows that a query sorts are such rows, so that there the
comparison is a total preorder. -/
theorem sort_ranks_rows :
    (∀ (spec : SortSpec) (rows : List Row), (∀ row ∈ rows, row.IsOrdered) →
      (spec.sort rows).Perm rows ∧ (∃ places, spec.Sorts rows places) ∧
        (spec.keys = [] → spec.sort rows = rows) ∧
          spec.sort (spec.sort rows) = spec.sort rows) ∧
    ∀ (datasets : Datasets) (query : Json) (plan : QueryPlan) (dataset : Dataset) (limit : Nat)
      (matched : List Record) (rows : List Row),
      dataset.Built → dataset.IsFinite → datasets.parse query = .ok plan →
        datasets plan.datasetId = some dataset →
          matching plan.filter dataset.records = .ok matched →
            plan.fullRows limit matched = .ok rows →
              (∀ row ∈ rows, row.IsOrdered) ∧
                ∀ spec : SortSpec, Std.TransCmp fun a b : { row // row ∈ rows } =>
                  spec.compareRows a.1 b.1 := by
  constructor
  · intro spec rows ordered
    refine ⟨QueryPlan.sort_perm spec rows, SortSpec.exists_sorts ordered, fun keys => ?_,
      SortSpec.sort_sort ordered⟩
    exact if_pos (List.isEmpty_iff.2 keys)
  · intro datasets query plan dataset limit matched rows built finite hparse hdataset hmatched hrows
    have ordered := QueryPlan.isOrdered_fullRows built finite hparse hdataset hmatched hrows
    exact ⟨ordered, SortSpec.transCmp_of_isOrdered ordered⟩

/-- The rows of the better sections. -/
theorem sort_ranks_rows_sample : ∃ plan matched rows places,
    sampleDatasets.parse sampleListing = .ok plan ∧
      matching plan.filter sampleSections = .ok matched ∧ plan.fullRows 10 matched = .ok rows ∧
        plan.sort.keys = ["cs_avg"] ∧ plan.sort.Sorts rows places ∧
          plan.sort.sort (plan.sort.sort rows) = plan.sort.sort rows := by
  obtain ⟨plan, matched, rows, hparse, hdataset, hmatched, hrows, keys⟩ : ∃ plan matched rows,
      sampleDatasets.parse sampleListing = .ok plan ∧
        sampleDatasets plan.datasetId = some ⟨"cs", .courses, sampleSections⟩ ∧
          matching plan.filter sampleSections = .ok matched ∧
            plan.fullRows 10 matched = .ok rows ∧ plan.sort.keys = ["cs_avg"] :=
    ⟨_, _, _, rfl, rfl, rfl, rfl, rfl⟩
  have finite : Dataset.IsFinite ⟨"cs", .courses, sampleSections⟩ := by decide +kernel
  obtain ⟨ordered, -⟩ := sort_ranks_rows.2 _ _ _ _ 10 _ _ (sampleDatasets_built "cs" _ rfl) finite
    hparse hdataset hmatched hrows
  obtain ⟨-, ⟨places, sorts⟩, -, twice⟩ := sort_ranks_rows.1 plan.sort rows ordered
  exact ⟨plan, matched, rows, places, hparse, hmatched, hrows, keys, sorts, twice⟩

end CampusQuery
