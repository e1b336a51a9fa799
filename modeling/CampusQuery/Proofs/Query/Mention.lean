import CampusQuery.Proofs.Query.Listing

/-!
What the answer to a query depends on. Main statement: two lookups of datasets that agree on the
dataset of the first column, on the number of its records and on the fields that the document names
answer the document alike.
-/

namespace CampusQuery

namespace Json

/-- The key is the one of a comparison in the filter document. -/
inductive FilterNames : Json → String → Prop where
  | comparison (op : ComparisonOp) (key : String) (value : Json) :
    FilterNames (.object [(op.name, .object [(key, value)])]) key
  | composite (op : LogicalOp) {items : List Json} {item : Json} {key : String} (h : item ∈ items)
    (inner : FilterNames item key) : FilterNames (.object [(op.name, .array items)]) key
  | negate {body : Json} {key : String} (inner : FilterNames body key) :
    FilterNames (.object [("NEGATE", body)]) key

/-- The key occurs in COLUMNS, in FILTER, in GROUP or as the target of an aggregate. -/
inductive Names (query : Json) (key : String) : Prop where
  | column (items : List Json) (h : query.at? ["OPTIONS", "COLUMNS"] = some (.array items))
    (hkey : .string key ∈ items)
  | filter (clause : Json) (h : query.at? ["FILTER"] = some clause)
    (hkey : clause.FilterNames key)
  | group (items : List Json) (h : query.at? ["TRANSFORM", "GROUP"] = some (.array items))
    (hkey : .string key ∈ items)
  | target (items : List Json) (name op : String)
    (h : query.at? ["TRANSFORM", "APPLY"] = some (.array items))
    (hkey : .object [(name, .object [(op, .string key)])] ∈ items)

/-- The dataset that the first column names. -/
def datasetId? (query : Json) : Option String :=
  match query.at? ["OPTIONS", "COLUMNS"] with
  | some (.array (.string first :: _)) => (splitKey? first).map Prod.fst
  | _ => none

end Json

/-- The records have the same values of the fields that the document names. -/
def Record.AgreeOn (query : Json) (id : String) (a b : Record) : Prop :=
  ∀ field : Field, query.Names (qualify id field.name) → a.find? field.name = b.find? field.name

/-- Datasets of one kind whose records agree one by one. -/
structure Dataset.AgreeOn (query : Json) (id : String) (d e : Dataset) : Prop where
  kind : d.kind = e.kind
  records : List.Forall₂ (Record.AgreeOn query id) d.records e.records

/-- The rows have the same values in these columns. -/
def Row.AgreeOn (columns : List String) (a b : Row) : Prop :=
  ∀ column ∈ columns, a.get? column = b.get? column

section Parsing

theorem Scope.ofFirstColumn_congr {kinds kinds' : String → Option SchemaKind} {column : String}
    (h : ∀ id name, splitKey? column = some (id, name) → kinds id = kinds' id) :
    ofFirstColumn kinds column = ofFirstColumn kinds' column := by
  unfold ofFirstColumn
  cases hsplit : splitKey? column with
  | none => rfl
  | some parts =>
    obtain ⟨id, name⟩ := parts
    simp only [h id name hsplit]

/-- Of the datasets only the kind of the one that the first column names is looked at. -/
theorem QueryPlan.ofJson_congr {kinds kinds' : String → Option SchemaKind} {query : Json}
    (h : ∀ id, query.datasetId? = some id → kinds id = kinds' id) :
    ofJson kinds query = ofJson kinds' query := by
  unfold ofJson
  refine bind_congr_of_ok fun clauses hclauses => bind_congr_of_ok fun columns hcolumns => ?_
  obtain ⟨filled, hitems⟩ := asStrings_eq_ok.1 hcolumns
  obtain ⟨first, others, rfl⟩ := List.exists_cons_of_ne_nil filled
  have listed := (QueryClauses.partOf_of_ofJson hclauses).columns
  rw [hitems] at listed
  rw [List.headD_cons, Scope.ofFirstColumn_congr fun id name hsplit => h id ?_]
  simp [Json.datasetId?, listed, hsplit]

end Parsing

section Filters

variable {a b : Record}

theorem Record.valueOf_congr {ref : FieldRef}
    (h : a.find? ref.field.name = b.find? ref.field.name) : a.valueOf ref = b.valueOf ref := by
  rw [valueOf, valueOf, h]

theorem Comparison.eval_congr {c : Comparison}
    (h : a.find? c.field.field.name = b.find? c.field.field.name) : c.eval a = c.eval b := by
  rw [eval, eval, test, test, Record.valueOf_congr h]

theorem Composite.eval_ofChildren_congr (op : LogicalOp) (negated : Bool)
    {nodes : List FilterNode} (h : ∀ node ∈ nodes, node.eval a = node.eval b) :
    (Composite.ofChildren op nodes negated).eval a =
      (Composite.ofChildren op nodes negated).eval b := by
  have comparisons : (nodes.filterMap FilterNode.comparison?).map (Comparison.eval a) =
      (nodes.filterMap FilterNode.comparison?).map (Comparison.eval b) :=
    List.map_congr_left fun c hc => h _ (FilterNode.mem_comparisons_iff.1 hc)
  have composites : (nodes.filterMap FilterNode.composite?).map (Composite.eval a) =
      (nodes.filterMap FilterNode.composite?).map (Composite.eval b) :=
    List.map_congr_left fun c hc => h _ (FilterNode.mem_composites_iff.1 hc)
  rw [Composite.ofChildren, eval, eval, evalAll_eq_map, evalAll_eq_map, comparisons, composites]

/-- A filter looks at the fields that its document names. -/
theorem Scope.eval_congr_of_filter {scope : Scope} {negated : Bool} {json : Json}
    {node : FilterNode} (read : scope.filter negated json = .ok node)
    (h : ∀ field : Field, json.FilterNames (qualify scope.datasetId field.name) →
      a.find? field.name = b.find? field.name) : node.eval a = node.eval b := by
  refine filter_induction (P := fun _ json node =>
    (∀ field : Field, json.FilterNames (qualify scope.datasetId field.name) →
      a.find? field.name = b.find? field.name) → node.eval a = node.eval b)
    ?_ ?_ ?_ negated json node read h
  · intro op negated body c hc h
    obtain ⟨value, rfl, owned, -, -, -⟩ := comparison_iff.1 hc
    refine Comparison.eval_congr (h c.field.field ?_)
    rw [← owned.refers.joined]
    exact .comparison op c.field.key value
  · intro op negated items nodes filled children h
    refine Composite.eval_ofChildren_congr op negated fun node hnode => ?_
    obtain ⟨item, hitem, agree⟩ := exists_of_mem_right children hnode
    exact agree fun field named => h field (.composite op hitem named)
  · exact fun negated body node inner h => inner fun field named => h field (.negate named)

end Filters

section Plans

variable {scope : Scope} {query : Json} {plan : QueryPlan} {a b : Record} {xs ys : List Record}

theorem Scope.Plans.datasetId?_eq (h : scope.Plans query plan) :
    query.datasetId? = some scope.datasetId := by
  obtain ⟨first, hfirst, keyed⟩ := h.pinned
  obtain ⟨others, hcolumns⟩ := List.head?_eq_some_iff.1 hfirst
  obtain ⟨name, hsplit⟩ := keyed.splitKey?
  have columns := h.columns
  rw [hcolumns] at columns
  simp [Json.datasetId?, columns, hsplit]

theorem Scope.Plans.names_column (h : scope.Plans query plan) {column : String}
    (hcolumn : column ∈ plan.columns) : query.Names column :=
  .column _ h.columns (List.mem_map_of_mem hcolumn)

theorem Scope.Plans.names_group (h : scope.Plans query plan) {ref : FieldRef}
    (href : ref ∈ plan.group) : query.Names ref.key := by
  have transform := h.transform
  split at transform
  · next clause hclause =>
    refine .group (plan.group.map fun ref => .string ref.key) ?_ (List.mem_map.2 ⟨ref, href, rfl⟩)
    rw [at?_cons, hclause, Option.bind_some, transform.keys]
  · rw [transform.1] at href
    contradiction

theorem Scope.Plans.names_target (h : scope.Plans query plan) {spec : AggregateSpec}
    (hspec : spec ∈ plan.aggregates) : query.Names spec.target.key := by
  have transform := h.transform
  split at transform
  · next clause hclause =>
    refine .target (plan.aggregates.map AggregateSpec.document) spec.name spec.op.name ?_
      (List.mem_map.2 ⟨spec, hspec, rfl⟩)
    rw [at?_cons, hclause, Option.bind_some, transform.entries]
  · rw [transform.2] at hspec
    contradiction

theorem Record.AgreeOn.find?_eq (h : a.AgreeOn query scope.datasetId b) {ref : FieldRef}
    (owned : scope.Owns ref) (named : query.Names ref.key) :
    a.find? ref.field.name = b.find? ref.field.name := by
  apply h
  rwa [← owned.refers.joined]

/-- Records are kept on one side when they are kept on the other. -/
theorem Scope.Plans.agree_matching (h : scope.Plans query plan)
    (records : List.Forall₂ (Record.AgreeOn query scope.datasetId) xs ys) :
    Agree (List.Forall₂ (Record.AgreeOn query scope.datasetId))
      (matching plan.filter xs) (matching plan.filter ys) := by
  have judged : ∀ a b : Record, a.AgreeOn query scope.datasetId b →
      plan.filter.elim (.ok true) (FilterNode.eval a) =
        plan.filter.elim (.ok true) (FilterNode.eval b) := by
    intro a b agree
    obtain ⟨clause, hclause, hfilter⟩ := h.filter
    rcases filterClause_iff.1 hfilter with ⟨-, hnone⟩ | ⟨node, hnode, read⟩
    · rw [hnone]
      rfl
    · rw [hnode]
      exact eval_congr_of_filter read fun field named => agree field (.filter clause hclause named)
  induction records with
  | nil => exact .ok .nil
  | @cons a b _ _ head _ ih =>
    rw [QueryPlan.matching_cons, QueryPlan.matching_cons, judged a b head]
    refine Agree.bind_self fun keep => ih.map fun _ _ others => ?_
    cases keep
    · exact others
    · exact .cons head others

section Groups

variable (h : scope.Plans query plan)
  (records : List.Forall₂ (Record.AgreeOn query scope.datasetId) xs ys)

include h

theorem Scope.Plans.tuple_eq (agree : a.AgreeOn query scope.datasetId b) :
    a.tuple plan.group = b.tuple plan.group := by
  refine List.map_congr_left fun ref href => ?_
  rw [Record.cell, Record.cell,
    agree.find?_eq (h.owned ref href) (h.names_group href)]

include records

theorem Scope.Plans.groupTuples_eq : plan.groupTuples xs = plan.groupTuples ys := by
  have tuples : xs.map (Record.tuple plan.group) = ys.map (Record.tuple plan.group) := by
    rw [← List.forall₂_eq_eq_eq, List.forall₂_map_left_iff, List.forall₂_map_right_iff]
    exact records.imp fun _ _ agree => h.tuple_eq agree
  rw [QueryPlan.groupTuples, QueryPlan.groupTuples, tuples]

theorem Scope.Plans.forall₂_members (tuple : List FieldValue) :
    List.Forall₂ (Record.AgreeOn query scope.datasetId)
      (plan.groupMembers xs tuple) (plan.groupMembers ys tuple) :=
  forall₂_filter records fun _ _ agree => by rw [h.tuple_eq agree]

theorem Scope.Plans.compute_eq {spec : AggregateSpec} (hspec : spec ∈ plan.aggregates) :
    spec.compute xs = spec.compute ys := by
  have owned := (h.admitted spec hspec).target
  have values : ∀ a b : Record, a.AgreeOn query scope.datasetId b →
      a.valueOf spec.target = b.valueOf spec.target := fun _ _ agree =>
    Record.valueOf_congr (agree.find?_eq owned (h.names_target hspec))
  have targets : spec.targets xs = spec.targets ys := mapM_congr_of_forall₂ records values
  have numbers : spec.numbers xs = spec.numbers ys :=
    mapM_congr_of_forall₂ records fun a b agree => by rw [values a b agree]
  rw [AggregateSpec.compute, AggregateSpec.compute, targets, numbers]

theorem Scope.Plans.row_eq (tuple : List FieldValue) :
    (plan.groupOf xs tuple).row plan.group plan.aggregates =
      (plan.groupOf ys tuple).row plan.group plan.aggregates := by
  have members := h.forall₂_members records tuple
  have computed : (plan.aggregates.mapM fun spec =>
      (spec.compute (plan.groupMembers xs tuple)).map (spec.name, ·)) =
      plan.aggregates.mapM fun spec =>
        (spec.compute (plan.groupMembers ys tuple)).map (spec.name, ·) :=
    mapM_congr_left fun spec hspec => by rw [h.compute_eq members hspec]
  unfold QueryPlan.groupOf Bucket.row
  rw [computed]

theorem Scope.Plans.aggregate_eq (limit : Nat)
    (hxs : ∀ record ∈ xs, record.WellFormed scope.kind)
    (hys : ∀ record ∈ ys, record.WellFormed scope.kind) :
    plan.aggregate limit xs = plan.aggregate limit ys := by
  have rows := fun tuple => h.row_eq records tuple
  have fits := h.resolved.groupFits
  rw [QueryPlan.aggregate_eq limit fits hxs, QueryPlan.aggregate_eq limit fits hys,
    h.groupTuples_eq records]
  simp only [rows]

end Groups

section Rows

theorem SortSpec.forall₂_sort_of_agreeOn {spec : SortSpec} {columns : List String}
    (listed : ∀ key ∈ spec.keys, key ∈ columns) {rows rows' : List Row}
    (h : List.Forall₂ (Row.AgreeOn columns) rows rows') :
    List.Forall₂ (Row.AgreeOn columns) (spec.sort rows) (spec.sort rows') := by
  unfold sort
  split
  · exact h
  · exact forall₂_stableSort h fun a a' b b' hab hab' => compareRows_of_get?
      (fun key hkey => hab key (listed key hkey)) (fun key hkey => hab' key (listed key hkey))

theorem QueryPlan.project_congr {row row' : Row} (h : row.AgreeOn plan.columns row') :
    plan.project row = plan.project row' := by
  unfold project
  rw [mapM_congr_left fun column hcolumn => by rw [h column hcolumn]]

variable (h : scope.Plans query plan)
  (records : List.Forall₂ (Record.AgreeOn query scope.datasetId) xs ys)
  (hxs : ∀ record ∈ xs, record.WellFormed scope.kind)
  (hys : ∀ record ∈ ys, record.WellFormed scope.kind) (limit : Nat)

include h records hxs hys

theorem Scope.Plans.agree_fullRows : Agree (List.Forall₂ (Row.AgreeOn plan.columns))
    (plan.fullRows limit xs) (plan.fullRows limit ys) := by
  unfold QueryPlan.fullRows
  split
  · rw [h.aggregate_eq records limit hxs hys]
    exact .refl (fun rows => List.forall₂_same.2 fun _ _ _ _ => rfl) _
  · next ungrouped =>
    rw [records.length_eq]
    refine Agree.bind_self fun _ => .ok ?_
    rw [List.forall₂_map_left_iff, List.forall₂_map_right_iff]
    refine records.imp fun a b agree column hcolumn => ?_
    obtain ⟨field, rfl⟩ := h.keyed (by simpa using ungrouped) column hcolumn
    rw [QueryPlan.get?_qualifyRecord, QueryPlan.get?_qualifyRecord]
    apply agree
    rw [← h.datasetId]
    exact h.names_column hcolumn

theorem Scope.Plans.format_eq : plan.format limit xs = plan.format limit ys := by
  apply Agree.eq
  unfold QueryPlan.format
  refine Agree.bind_self fun _ => ?_
  refine (h.agree_fullRows records hxs hys limit).bind fun rows rows' hrows => ?_
  rw [hrows.length_eq]
  refine Agree.bind_self fun _ => ?_
  -- ORDER may name fields that COLUMNS does not; these fail the query before rows are compared.
  cases checked : plan.checkSortKeys with
  | error e => exact .error e
  | ok _ =>
    have listed := QueryPlan.checkSortKeys_eq_ok checked
    rw [ok_bind, ok_bind, mapM_congr_of_forall₂ (SortSpec.forall₂_sort_of_agreeOn listed hrows)
      fun _ _ => QueryPlan.project_congr]
    exact .refl (fun _ => rfl) _

omit records hxs hys

theorem Scope.Plans.execute_rows_eq {datasets datasets' : Datasets} {d e : Dataset}
    (hd : datasets scope.datasetId = some d) (he : datasets' scope.datasetId = some e)
    (same : d.AgreeOn query scope.datasetId e)
    (wellFormed : ∀ record ∈ d.records, record.WellFormed scope.kind)
    (wellFormed' : ∀ record ∈ e.records, record.WellFormed scope.kind) :
    (plan.execute datasets limit).map ExecutionResult.rows =
      (plan.execute datasets' limit).map ExecutionResult.rows := by
  have matched := h.agree_matching same.records
  unfold QueryPlan.execute
  rw [h.datasetId, hd, he]
  dsimp only
  cases hxs : matching plan.filter d.records <;> cases hys : matching plan.filter e.records <;>
    rw [hxs, hys] at matched
  case error.error failed other =>
    cases matched
    rfl
  case ok.ok xs ys =>
    cases matched with
    | ok records =>
      obtain rfl := QueryPlan.eq_filter_of_matching hxs
      obtain rfl := QueryPlan.eq_filter_of_matching hys
      have rows := h.format_eq records
        (fun record hrecord => wellFormed record (List.mem_filter.1 hrecord).1)
        (fun record hrecord => wellFormed' record (List.mem_filter.1 hrecord).1) limit
      rw [ok_bind, ok_bind, rows]
      cases plan.format limit (e.records.filter plan.accepts) <;> rfl
  all_goals contradiction

end Rows

end Plans

/-- Two lookups answer a query alike, with the same rows or the same failure, if they both lack the
dataset that its first column names, or both have one of the same kind whose records agree, one by
one, on the fields that the query names. -/
theorem Datasets.query_eq_of_agreeOn {datasets datasets' : Datasets}
    (built : ∀ id dataset, datasets id = some dataset → dataset.Built)
    (built' : ∀ id dataset, datasets' id = some dataset → dataset.Built) {query : Json}
    (agree : ∀ id, query.datasetId? = some id →
      Option.Rel (Dataset.AgreeOn query id) (datasets id) (datasets' id)) (limit : Nat) :
    datasets.query limit query = datasets'.query limit query := by
  have kinds : ∀ id, query.datasetId? = some id →
      (datasets id).map Dataset.kind = (datasets' id).map Dataset.kind := by
    intro id hid
    rcases rel_cases (agree id hid) with ⟨hd, he⟩ | ⟨d, e, hd, he, same⟩
    · rw [hd, he]
    · rw [hd, he, Option.map_some, Option.map_some, same.kind]
  have rowsOf : ∀ x : QueryResult ExecutionResult,
      (x >>= fun result => pure result.rows) = x.map ExecutionResult.rows := fun x => by
    cases x <;> rfl
  unfold Datasets.query Datasets.parse
  rw [← QueryPlan.ofJson_congr kinds]
  refine bind_congr_of_ok fun plan hparse => ?_
  obtain ⟨scope, hkind, plans⟩ := QueryPlan.ofJson_iff.1 hparse
  rcases rel_cases (agree _ plans.datasetId?_eq) with ⟨hd, -⟩ | ⟨d, e, hd, he, same⟩
  · rw [hd] at hkind
    contradiction
  have wellFormed := (Dataset.built_iff.1 (built _ d hd)).2
  have wellFormed' := (Dataset.built_iff.1 (built' _ e he)).2
  rw [hd, Option.map_some, Option.some.injEq] at hkind
  rw [hkind] at wellFormed
  rw [← same.kind, hkind] at wellFormed'
  rw [rowsOf, rowsOf]
  exact plans.execute_rows_eq limit hd he same wellFormed wellFormed'

/-- The sample sections with other audits, next to a further dataset. -/
def sampleRevision : Datasets := fun id =>
  if id = "cs" then
    some ⟨"cs", .courses, [sampleSection 91.5 3 "cpsc", sampleSection 60 0 "math",
      sampleSection 70.25 12 "cpsc"]⟩
  else if id = "old" then some ⟨"old", .courses, sampleSections⟩
  else none

theorem sampleRevision_built :
    ∀ id dataset, sampleRevision id = some dataset → dataset.Built := by
  intro id dataset h
  unfold sampleRevision at h
  split at h
  · cases h
    refine Dataset.built_iff.2 ⟨by decide, ?_⟩
    simp only [List.forall_mem_cons]
    exact ⟨sampleSection_wellFormed _ _ _, sampleSection_wellFormed _ _ _,
      sampleSection_wellFormed _ _ _, by simp⟩
  split at h
  · cases h
    exact Dataset.built_iff.2 ⟨by decide, sampleSections_wellFormed⟩
  · contradiction

theorem sampleListing_names {key : String} (h : sampleListing.Names key) :
    key = "cs_avg" ∨ key = "cs_dept" := by
  cases h with
  | column items h hkey =>
    cases h
    simpa using hkey
  | filter clause h hkey =>
    have hclause := Option.some.inj h
    cases hkey with
    | comparison op key value =>
      simp only [Json.object.injEq, List.cons.injEq, Prod.mk.injEq, and_true] at hclause
      exact .inl hclause.2.1.symm
    | composite op hitem inner => simp at hclause
    | negate inner => simp at hclause
  | group items h hkey => contradiction
  | target items name op h hkey => contradiction

theorem sampleSection_agreeOn (avg audit audit' : Float) (dept : String) :
    (sampleSection avg audit dept).AgreeOn sampleListing "cs" (sampleSection avg audit' dept) := by
  intro field named
  rcases sampleListing_names named with h | h
  · have name := QueryPlan.qualify_inj.1
      (show qualify "cs" field.name = qualify "cs" "avg" from h)
    rw [name]
    rfl
  · have name := QueryPlan.qualify_inj.1
      (show qualify "cs" field.name = qualify "cs" "dept" from h)
    rw [name]
    rfl

theorem Datasets.query_eq_of_agreeOn_sample :
    sampleDatasets.query defaultLimit sampleListing =
      sampleRevision.query defaultLimit sampleListing := by
  refine Datasets.query_eq_of_agreeOn sampleDatasets_built sampleRevision_built ?_ defaultLimit
  intro id hid
  obtain rfl : "cs" = id := Option.some.inj hid
  refine .some ⟨rfl, ?_⟩
  exact .cons (sampleSection_agreeOn _ _ _ _) (.cons (sampleSection_agreeOn _ _ _ _)
    (.cons (sampleSection_agreeOn _ _ _ _) .nil))

end CampusQuery
