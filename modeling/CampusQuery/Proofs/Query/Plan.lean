import CampusQuery.Proofs.Query.Acceptance
import CampusQuery.Proofs.Query.Aggregate

/-!
What the plan of a query document refers to. Main statement: all keys of a plan that was read from a
document are resolved in one scope, which is that of a dataset that exists.
-/

namespace CampusQuery

/-- The columns, the filter and the targets of a plan belong to one scope. -/
structure QueryPlan.Resolved (scope : Scope) (plan : QueryPlan) : Prop where
  datasetId : plan.datasetId = scope.datasetId
  filter : ∀ node, plan.filter = some node → ∃ json, scope.filter false json = .ok node
  /-- A column with an underscore is a field. -/
  columns : ∀ column ∈ plan.columns, '_' ∈ column.toList → ∃ ref, scope.resolve column = .ok ref
  /-- Other columns occur in grouped queries only. -/
  plainColumns : ∀ column ∈ plan.columns, '_' ∉ column.toList → plan.isGrouped = true
  group : ∀ ref ∈ plan.group, ∃ key, scope.resolve key = .ok ref
  targets : ∀ spec ∈ plan.aggregates, ∃ key, scope.resolve key = .ok spec.target
  numericTargets : ∀ spec ∈ plan.aggregates,
    spec.op.requiresNumeric = true → spec.target.field.isNumeric = true
  /-- A name of APPLY is no key. -/
  plainNames : ∀ spec ∈ plan.aggregates, '_' ∉ spec.name.toList
  distinctNames : (plan.aggregates.map AggregateSpec.name).Nodup

namespace QueryPlan.Resolved

variable {scope : Scope} {plan : QueryPlan}

theorem groupFits (h : plan.Resolved scope) : plan.GroupFits scope.kind where
  group ref href := by
    obtain ⟨key, hkey⟩ := h.group ref href
    exact (Scope.resolve_eq_ok.1 hkey).2.2
  aggregates spec hspec := by
    obtain ⟨key, hkey⟩ := h.targets spec hspec
    exact ⟨(Scope.resolve_eq_ok.1 hkey).2.2, h.numericTargets spec hspec⟩

/-- Group fields of one key are one field. -/
theorem name_inj (h : plan.Resolved scope) {a b : FieldRef} (ha : a ∈ plan.group)
    (hb : b ∈ plan.group) (heq : a.key = b.key) : a.field.name = b.field.name := by
  obtain ⟨key, hkey⟩ := h.group a ha
  obtain ⟨key', hkey'⟩ := h.group b hb
  have hsplit := (Scope.resolve_eq_ok.1 hkey).1
  have hsplit' := (Scope.resolve_eq_ok.1 hkey').1
  rw [← Scope.key_of_resolve hkey, heq, Scope.key_of_resolve hkey', hsplit'] at hsplit
  simpa using hsplit.symm

/-- A group field has an underscore in its key, and a name of APPLY has none. -/
theorem key_ne_name (h : plan.Resolved scope) {ref : FieldRef} {spec : AggregateSpec}
    (hspec : spec ∈ plan.aggregates) : ref.key ≠ spec.name := by
  intro heq
  apply h.plainNames spec hspec
  simp [← heq, FieldRef.key, qualify]

end QueryPlan.Resolved

/-- What a document asks for is resolved in the scope of its first column. -/
theorem Scope.Plans.resolved {scope : Scope} {query : Json} {plan : QueryPlan}
    (h : scope.Plans query plan) : plan.Resolved scope where
  datasetId := h.datasetId
  filter := by
    intro node hnode
    obtain ⟨clause, -, hfilter⟩ := h.filter
    rcases filterClause_iff.1 hfilter with ⟨-, hnone⟩ | ⟨found, hfound, read⟩
    · rw [hnone] at hnode
      contradiction
    · obtain rfl := Option.some.inj (hnode.symm.trans hfound)
      exact ⟨clause, read⟩
  columns := by
    intro column hcolumn underscore
    rcases h.listed column hcolumn with keyed | ⟨named, -⟩
    · exact exists_resolve_iff.2 keyed
    · exact absurd underscore named.plain
  plainColumns := by
    intro column hcolumn plain
    rcases h.listed column hcolumn with keyed | ⟨-, grouped⟩
    · exact absurd keyed.underscore plain
    · exact h.isGrouped_iff.2 grouped
  group ref href := ⟨ref.key, resolve_iff.2 ⟨rfl, h.owned ref href⟩⟩
  targets spec hspec := ⟨spec.target.key, resolve_iff.2 ⟨rfl, (h.admitted spec hspec).target⟩⟩
  numericTargets := by
    intro spec hspec required
    have numeric : spec.target.field.fieldType = .numeric :=
      (h.admitted spec hspec).numeric (AggregateOp.requiresNumeric_iff.1 required)
    simp [Field.isNumeric, numeric]
  plainNames spec hspec := (h.admitted spec hspec).name.plain
  distinctNames := h.distinct

theorem QueryPlan.resolved_of_ofJson {kinds : String → Option SchemaKind} {json : Json}
    {plan : QueryPlan} (h : ofJson kinds json = .ok plan) :
    ∃ scope : Scope, kinds scope.datasetId = some scope.kind ∧ plan.Resolved scope := by
  obtain ⟨scope, hkind, plans⟩ := ofJson_iff.1 h
  exact ⟨scope, hkind, plans.resolved⟩

end CampusQuery
