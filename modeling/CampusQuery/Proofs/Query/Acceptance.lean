import CampusQuery.Query.Engine
import CampusQuery.Proofs.Query.Filters

/-!
Which documents are read. Main statement: a plan is read from a document exactly when the document
is a query in the scope of its first column.
-/

namespace CampusQuery

namespace Scope

/-- What a query document asks for. -/
structure Plans (scope : Scope) (json : Json) (plan : QueryPlan) : Prop where
  members : json.HasExactly ["FILTER", "OPTIONS"] ∨
    json.HasExactly ["FILTER", "OPTIONS", "TRANSFORM"]
  options : ∃ options, json.at? ["OPTIONS"] = some options ∧
    (options.HasExactly ["COLUMNS"] ∨ options.HasExactly ["COLUMNS", "ORDER"])
  datasetId : plan.datasetId = scope.datasetId
  pinned : ∃ first, plan.columns.head? = some first ∧ scope.IsKey first
  columns : json.at? ["OPTIONS", "COLUMNS"] = some (.array (plan.columns.map .string))
  listed : ∀ column ∈ plan.columns, scope.IsColumn (json.at? ["TRANSFORM"]) column
  filter : ∃ clause, json.at? ["FILTER"] = some clause ∧ scope.filterClause clause = .ok plan.filter
  order : match json.at? ["OPTIONS", "ORDER"] with
    | some clause => scope.Orders clause plan.sort
    | none => plan.sort = {}
  transform : match json.at? ["TRANSFORM"] with
    | some clause => scope.Transforms clause plan.group plan.aggregates
    | none => plan.group = [] ∧ plan.aggregates = []

end Scope

namespace QueryPlan

/-- The steps in which a plan is read from a document. -/
structure ReadFrom (kinds : String → Option SchemaKind) (json : Json) (clauses : QueryClauses)
    (scope : Scope) (plan : QueryPlan) : Prop where
  parts : QueryClauses.ofJson json = .ok clauses
  columns : asStrings "COLUMNS" clauses.columns = .ok plan.columns
  pinned : Scope.ofFirstColumn kinds (plan.columns.headD "") = .ok scope
  datasetId : plan.datasetId = scope.datasetId
  checked : ∀ column ∈ plan.columns, scope.checkColumn clauses.transform.isSome column = .ok ()
  filter : scope.filterClause clauses.filter = .ok plan.filter
  sort : match clauses.order with
    | some order => scope.orderClause order = .ok plan.sort
    | none => plan.sort = ({} : SortSpec)
  transform : match clauses.transform with
    | some transform => scope.transformClause transform = .ok (plan.group, plan.aggregates)
    | none => plan.group = [] ∧ plan.aggregates = []

theorem readFrom_of_ofJson {kinds : String → Option SchemaKind} {json : Json} {plan : QueryPlan}
    (h : ofJson kinds json = .ok plan) :
    ∃ clauses scope, ReadFrom kinds json clauses scope plan := by
  unfold ofJson at h
  obtain ⟨clauses, hclauses, h⟩ := bind_eq_ok.1 h
  obtain ⟨columns, hcolumns, h⟩ := bind_eq_ok.1 h
  obtain ⟨scope, hscope, h⟩ := bind_eq_ok.1 h
  obtain ⟨hchecked, h⟩ := check_bind_eq_ok.1 h
  obtain ⟨filter, hfilter, h⟩ := bind_eq_ok.1 h
  have hchecked := forM_eq_ok.1 hchecked
  refine ⟨clauses, scope, ?_⟩
  cases horder : clauses.order <;> cases htransform : clauses.transform <;>
    rw [horder, htransform] at h
  all_goals
    obtain ⟨sort, hsort, h⟩ := bind_eq_ok.1 h
    obtain ⟨⟨group, aggregates⟩, hgroup, h⟩ := bind_eq_ok.1 h
    cases h
    refine ⟨hclauses, hcolumns, hscope, rfl, hchecked, hfilter, ?_, ?_⟩
  all_goals
    simp only [horder, htransform]
    first
    | assumption
    | (cases hsort; rfl)
    | (cases hgroup; exact ⟨rfl, rfl⟩)

variable {kinds : String → Option SchemaKind} {json : Json} {plan : QueryPlan} {scope : Scope}

theorem plans_of_ofJson (h : ofJson kinds json = .ok plan) :
    ∃ scope : Scope, kinds scope.datasetId = some scope.kind ∧ scope.Plans json plan := by
  obtain ⟨clauses, scope, read⟩ := readFrom_of_ofJson h
  obtain ⟨hkind, keyed⟩ := Scope.ofFirstColumn_iff.1 read.pinned
  obtain ⟨filled, hcolumns⟩ := asStrings_eq_ok.1 read.columns
  obtain ⟨first, others, hfirst⟩ := List.exists_cons_of_ne_nil filled
  have parts := QueryClauses.partOf_of_ofJson read.parts
  refine ⟨scope, hkind, {
    members := parts.members
    options := parts.options
    datasetId := read.datasetId
    pinned := ⟨first, by rw [hfirst]; rfl, by rwa [hfirst] at keyed⟩
    columns := by rw [parts.columns, hcolumns]
    listed := fun column hcolumn => by
      rw [parts.transform]
      exact Scope.checkColumn_iff.1 (read.checked column hcolumn)
    filter := ⟨clauses.filter, parts.filter, read.filter⟩
    order := ?_
    transform := ?_ }⟩
  · have sort := read.sort
    rw [parts.order]
    cases horder : clauses.order <;> rw [horder] at sort
    · exact sort
    · exact Scope.orderClause_iff.1 sort
  · have transform := read.transform
    rw [parts.transform]
    cases htransform : clauses.transform <;> rw [htransform] at transform
    · exact transform
    · exact Scope.transformClause_iff.1 transform

theorem ofJson_of_plans (hkind : kinds scope.datasetId = some scope.kind)
    (h : scope.Plans json plan) : ofJson kinds json = .ok plan := by
  obtain ⟨members, options, hid, ⟨first, hfirst, keyed⟩, hcolumns, listed,
    ⟨clause, hclause, hfilter⟩, order, transform⟩ := h
  have parts : QueryClauses.PartOf json ⟨clause, .array (plan.columns.map .string),
      json.at? ["OPTIONS", "ORDER"], json.at? ["TRANSFORM"]⟩ :=
    ⟨members, options, hclause, hcolumns, rfl, rfl⟩
  obtain ⟨datasetId, filter, columns, sort, group, aggregates⟩ := plan
  dsimp only at hid hfirst parts listed hfilter order transform
  subst hid
  obtain ⟨others, rfl⟩ := List.head?_eq_some_iff.1 hfirst
  have checked := fun column hcolumn => Scope.checkColumn_iff.2 (listed column hcolumn)
  unfold ofJson
  rw [parts.ofJson_eq_ok, ok_bind, asStrings_eq_ok.2 ⟨List.cons_ne_nil first others, rfl⟩, ok_bind,
    List.headD_cons, Scope.ofFirstColumn_iff.2 ⟨hkind, keyed⟩, ok_bind, forM_eq_ok.2 checked,
    ok_bind, hfilter, ok_bind]
  cases horder : json.at? ["OPTIONS", "ORDER"] <;> cases htransform : json.at? ["TRANSFORM"] <;>
    rw [horder] at order <;> rw [htransform] at transform <;>
    simp only [← Scope.orderClause_iff, ← Scope.transformClause_iff] at order transform <;>
    simp [order, transform]

/-- A plan is read from a document exactly when the document asks for it. -/
theorem ofJson_iff : ofJson kinds json = .ok plan ↔
    ∃ scope : Scope, kinds scope.datasetId = some scope.kind ∧ scope.Plans json plan :=
  ⟨plans_of_ofJson, fun ⟨_, hkind, h⟩ => ofJson_of_plans hkind h⟩

end QueryPlan

namespace Scope.Plans

variable {scope : Scope} {query : Json} {plan : QueryPlan} (h : scope.Plans query plan)

include h

theorem isGrouped_iff : plan.isGrouped = true ↔ (query.at? ["TRANSFORM"]).isSome := by
  have transform := h.transform
  cases htransform : query.at? ["TRANSFORM"] <;> rw [htransform] at transform
  · simp [QueryPlan.isGrouped, transform.1]
  · simp [QueryPlan.isGrouped, transform.filled]

theorem owned : ∀ ref ∈ plan.group, scope.Owns ref := by
  have transform := h.transform
  split at transform
  · exact transform.owned
  · simp [transform.1]

theorem admitted : ∀ spec ∈ plan.aggregates, scope.IsAggregate spec := by
  have transform := h.transform
  split at transform
  · exact transform.admitted
  · simp [transform.2]

theorem distinct : (plan.aggregates.map AggregateSpec.name).Nodup := by
  have transform := h.transform
  split at transform
  · exact transform.distinct
  · simp [transform.2]

end Scope.Plans

end CampusQuery
