import CampusQuery.Proofs.Data.Dataset
import CampusQuery.Proofs.Query.Plan
import CampusQuery.Proofs.Query.Selection

/-!
What holds of every plan that is read. Main statement: all that a plan refers to belongs to the
dataset of its first column, filters compare fields with operands of their types at any depth, and
the lists of a plan are those of its document.
-/

namespace CampusQuery

/-- The operands that the operator compares with values of the type. -/
inductive Operand.Fits : ComparisonOp → FieldType → Operand → Prop where
  | lessThan (x : Float) : Fits .lessThan .numeric (.number x)
  | greaterThan (x : Float) : Fits .greaterThan .numeric (.number x)
  | equalsNumber (x : Float) : Fits .equals .numeric (.number x)
  | equalsText (s : String) : Fits .equals .textual (.text s)
  | wildcard (w : Wildcard) : Fits .wildcard .textual (.pattern w)

namespace Scope

structure IsComparison (scope : Scope) (c : Comparison) : Prop where
  field : scope.Owns c.field
  operand : c.operand.Fits c.op c.field.fieldType

/-- Every comparison at any depth is one of the scope, and every node has children. -/
inductive IsComposite (scope : Scope) : Composite → Prop where
  | node (op : LogicalOp) {comparisons : List Comparison} {composites : List Composite}
    (negated : Bool) (filled : comparisons ≠ [] ∨ composites ≠ [])
    (leaves : ∀ c ∈ comparisons, scope.IsComparison c)
    (inner : ∀ c ∈ composites, IsComposite scope c) :
    IsComposite scope (.node op comparisons composites negated)

def IsNode (scope : Scope) : FilterNode → Prop
  | .comparison c => scope.IsComparison c
  | .composite c => scope.IsComposite c

/-- The key of a field of the scope, or no key at all. -/
def IsKeyOrPlain (scope : Scope) (name : String) : Prop :=
  (∃ ref, scope.Owns ref ∧ ref.key = name) ∨ '_' ∉ name.toList

end Scope

namespace QueryPlan

/-- All that the plan refers to belongs to the scope. -/
structure Within (scope : Scope) (plan : QueryPlan) : Prop where
  datasetId : plan.datasetId = scope.datasetId
  first : ∃ column name, plan.columns.head? = some column ∧
    splitKey? column = some (plan.datasetId, name)
  filter : ∀ node, plan.filter = some node → scope.IsNode node
  group : ∀ ref ∈ plan.group, scope.Owns ref
  targets : ∀ spec ∈ plan.aggregates, scope.Owns spec.target
  columns : ∀ column ∈ plan.columns, scope.IsKeyOrPlain column
  sortKeys : ∀ key ∈ plan.sort.keys, scope.IsKeyOrPlain key
  distinct : (plan.aggregates.map AggregateSpec.name).Nodup
  plain : ∀ spec ∈ plan.aggregates, '_' ∉ spec.name.toList
  apart : ∀ spec ∈ plan.aggregates, ∀ ref ∈ plan.group, ref.key ≠ spec.name

/-- The lists of the plan are those of the document, in the same order. -/
structure Lists (query : Json) (plan : QueryPlan) : Prop where
  columns : query.at? ["OPTIONS", "COLUMNS"] = some (.array (plan.columns.map .string))
  /-- A key alone, or an object with a direction and keys. -/
  order : ∀ clause, query.at? ["OPTIONS", "ORDER"] = some clause →
    (∃ key, clause = .string key ∧ plan.sort = ⟨.ascending, [key]⟩) ∨
      clause.at? ["dir"] = some (.string plan.sort.direction.name) ∧
        clause.at? ["keys"] = some (.array (plan.sort.keys.map .string))
  unordered : query.at? ["OPTIONS", "ORDER"] = none → plan.sort.keys = []
  grouped : plan.group ≠ [] ↔ (query.at? ["TRANSFORM"]).isSome
  transform : ∀ clause, query.at? ["TRANSFORM"] = some clause →
    clause.at? ["GROUP"] = some (.array (plan.group.map fun ref => .string ref.key)) ∧
      clause.at? ["APPLY"] = some (.array (plan.aggregates.map AggregateSpec.document))
  ungrouped : query.at? ["TRANSFORM"] = none → plan.aggregates = []

end QueryPlan

namespace Scope

variable {scope : Scope}

theorem fits_of_operand {op : ComparisonOp} {type : FieldType} {key : String} {value : Json}
    {x : Operand} (h : operand op type key value = .ok x) : x.Fits op type := by
  cases operand_iff.1 h <;> constructor

theorem isComposite_ofChildren (op : LogicalOp) (negated : Bool) {nodes : List FilterNode}
    (filled : nodes ≠ []) (h : ∀ node ∈ nodes, scope.IsNode node) :
    scope.IsComposite (.ofChildren op nodes negated) := by
  refine .node op negated ?_ (fun c hc => h _ (FilterNode.mem_comparisons_iff.1 hc))
    fun c hc => h _ (FilterNode.mem_composites_iff.1 hc)
  obtain ⟨node, others, rfl⟩ := List.exists_cons_of_ne_nil filled
  cases node with
  | comparison c => exact .inl (by simp [FilterNode.comparison?])
  | composite c => exact .inr (by simp [FilterNode.composite?])

theorem isNode_of_filter {negated : Bool} {json : Json} {node : FilterNode}
    (h : scope.filter negated json = .ok node) : scope.IsNode node := by
  refine filter_induction (P := fun _ _ node => scope.IsNode node) ?_ ?_ ?_ negated json node h
  · intro op negated body c hc
    obtain ⟨value, -, owned, hoperand, rfl, -⟩ := comparison_iff.1 hc
    exact ⟨owned, fits_of_operand hoperand⟩
  · intro op negated items nodes filled children
    refine isComposite_ofChildren op negated ?_ fun node hnode => ?_
    · rintro rfl
      exact filled (List.forall₂_nil_right_iff.1 children)
    · obtain ⟨item, -, hitem⟩ := exists_of_mem_right children hnode
      exact hitem
  · exact fun negated body node inner => inner

theorem IsKey.isKeyOrPlain {key : String} (h : scope.IsKey key) : scope.IsKeyOrPlain key := by
  obtain ⟨field, refers⟩ := h
  obtain ⟨ref, -, hkey, owned⟩ := refers.exists_owned
  exact .inl ⟨ref, owned, hkey⟩

theorem IsSortKey.isKeyOrPlain {key : String} (h : scope.IsSortKey key) :
    scope.IsKeyOrPlain key := by
  rcases h with keyed | named
  · exact keyed.isKeyOrPlain
  · exact .inr named.plain

theorem Orders.isSortKey {clause : Json} {spec : SortSpec} (h : scope.Orders clause spec) :
    ∀ key ∈ spec.keys, scope.IsSortKey key := by
  cases h with
  | key h => simpa
  | keys members direction keys filled h => exact h

/-- The prefix of a key is the dataset of the scope. -/
theorem IsKey.splitKey? {key : String} (h : scope.IsKey key) :
    ∃ name, CampusQuery.splitKey? key = some (scope.datasetId, name) := by
  obtain ⟨ref, href⟩ := exists_resolve_iff.2 h
  exact ⟨ref.field.name, (resolve_eq_ok.1 href).1⟩

theorem Owns.key_ne_name {ref : FieldRef} {name : String} (h : scope.Owns ref)
    (plain : '_' ∉ name.toList) : ref.key ≠ name := by
  rintro rfl
  exact plain (IsKey.underscore ⟨ref.field, h.refers⟩)

variable {query : Json} {plan : QueryPlan}

theorem Plans.within (h : scope.Plans query plan) : plan.Within scope := by
  obtain ⟨column, hcolumn, keyed⟩ := h.pinned
  obtain ⟨name, hsplit⟩ := keyed.splitKey?
  exact {
    datasetId := h.datasetId
    first := ⟨column, name, hcolumn, by rw [hsplit, h.datasetId]⟩
    filter := fun node hnode => (h.resolved.filter node hnode).elim fun _ => isNode_of_filter
    group := h.owned
    targets := fun spec hspec => (h.admitted spec hspec).target
    columns := by
      intro column hcolumn
      rcases h.listed column hcolumn with keyed | ⟨named, -⟩
      · exact keyed.isKeyOrPlain
      · exact .inr named.plain
    sortKeys := by
      have order := h.order
      split at order
      · exact fun key hkey => (order.isSortKey key hkey).isKeyOrPlain
      · simp [order]
    distinct := h.distinct
    plain := fun spec hspec => (h.admitted spec hspec).name.plain
    apart := fun spec hspec ref href =>
      (h.owned ref href).key_ne_name (h.admitted spec hspec).name.plain }

theorem Plans.lists (h : scope.Plans query plan) : plan.Lists query := by
  have order := h.order
  have transform := h.transform
  exact {
    columns := h.columns
    order := by
      intro clause hclause
      rw [hclause] at order
      generalize hspec : plan.sort = spec at order
      cases order with
      | key h => exact .inl ⟨_, rfl, rfl⟩
      | keys members direction keys filled h => exact .inr ⟨direction, keys⟩
    unordered := by
      intro hnone
      rw [hnone] at order
      rw [order]
    grouped := by
      rw [← h.isGrouped_iff]
      simp [QueryPlan.isGrouped]
    transform := by
      intro clause hclause
      rw [hclause] at transform
      exact ⟨transform.keys, transform.entries⟩
    ungrouped := by
      intro hnone
      rw [hnone] at transform
      exact transform.2 }

/-- Columns of ungrouped plans are keys of the dataset. -/
theorem Plans.keyed (h : scope.Plans query plan) (ungrouped : plan.isGrouped = false) :
    ∀ column ∈ plan.columns, ∃ field : Field, column = qualify plan.datasetId field.name := by
  intro column hcolumn
  rcases h.listed column hcolumn with ⟨field, refers⟩ | ⟨-, grouped⟩
  · exact ⟨field, by rw [h.datasetId, ← refers.joined]⟩
  · rw [h.isGrouped_iff.2 grouped] at ungrouped
    contradiction

end Scope

/-- Every plan that is read stays within the dataset of its first column, which exists, and lists
what its document lists. -/
theorem Datasets.parse_within {datasets : Datasets} {query : Json} {plan : QueryPlan}
    (h : datasets.parse query = .ok plan) : ∃ scope : Scope,
      (datasets scope.datasetId).map Dataset.kind = some scope.kind ∧ plan.Within scope ∧
        plan.Lists query := by
  obtain ⟨scope, hkind, plans⟩ := QueryPlan.ofJson_iff.1 h
  exact ⟨scope, hkind, plans.within, plans.lists⟩

/-- Departments whose sections pass a nested filter, with their best average, best departments
first. -/
def sampleRanking : Json :=
  .object [("FILTER", sampleFilter),
    ("OPTIONS", .object [("COLUMNS", .array [.string "cs_dept", .string "top"]),
      ("ORDER", .object [("dir", .string "DESCENDING"),
        ("keys", .array [.string "top", .string "cs_dept"])])]),
    ("TRANSFORM", .object [
      ("APPLY", .array [.object [("top", .object [("MAX", .string "cs_avg")])]]),
      ("GROUP", .array [.string "cs_dept"])])]

theorem Datasets.parse_within_sample : ∃ plan, sampleDatasets.parse sampleRanking = .ok plan ∧
    ∃ scope : Scope, (sampleDatasets scope.datasetId).map Dataset.kind = some scope.kind ∧
      plan.Within scope ∧ plan.Lists sampleRanking := by
  obtain ⟨plan, hplan⟩ : ∃ plan, sampleDatasets.parse sampleRanking = .ok plan := ⟨_, rfl⟩
  exact ⟨plan, hplan, Datasets.parse_within hplan⟩

end CampusQuery
