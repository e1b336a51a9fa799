import CampusQuery.Query.Engine
import CampusQuery.Proofs.Data.Dictionary
import CampusQuery.Proofs.Query.ShortCircuit

/-!
De Morgan's laws on filters. Main statement: a tree in which they are applied at any nodes has the
result of the tree on every record, be it a value or an error, and a query document in which they
are applied has the answer of the document.
-/

namespace CampusQuery

open Relation

/-! ### On trees -/

namespace LogicalOp

theorem decisive_dual (op : LogicalOp) : op.dual.decisive = !op.decisive := by
  cases op <;> rfl

/-- Opposite results stop the walk of the dual operator at the same child. -/
theorem combine_dual (op : LogicalOp) (results : List (QueryResult Bool)) :
    op.dual.combine (results.map (Except.map not)) = (op.combine results).map not := by
  induction results with
  | nil => rw [List.map_nil, combine, combine, map_ok, decisive_dual]
  | cons result results ih =>
    cases result with
    | error e => rfl
    | ok b =>
      rw [List.map_cons, map_ok, combine, combine, ih, decisive_dual]
      by_cases h : b = op.decisive <;> simp [h]

end LogicalOp

namespace Comparison

/-- The opposite comparison. -/
def flip (c : Comparison) : Comparison :=
  { c with negated := !c.negated }

theorem eval_flip (record : Record) (c : Comparison) :
    c.flip.eval record = (c.eval record).map not := by
  change (c.test record).map (· != !c.negated) = ((c.test record).map (· != c.negated)).map not
  cases c.test record <;> simp

end Comparison

namespace Composite

/-- The opposite node. -/
def flip : Composite → Composite
  | .node op comparisons composites negated => .node op comparisons composites (!negated)

/-- The node after De Morgan's law: the other operator over the opposites of the children, and the
opposite of that. -/
def dual : Composite → Composite
  | .node op comparisons composites negated =>
    .node op.dual (comparisons.map Comparison.flip) (composites.map flip) (!negated)

theorem eval_flip (record : Record) (c : Composite) :
    c.flip.eval record = (c.eval record).map not := by
  obtain ⟨op, comparisons, composites, negated⟩ := c
  rw [flip, eval, eval]
  cases op.combine (comparisons.map (Comparison.eval record) ++ evalAll record composites) <;> simp

theorem eval_dual (record : Record) (c : Composite) : c.dual.eval record = c.eval record := by
  obtain ⟨op, comparisons, composites, negated⟩ := c
  have opposite : (comparisons.map Comparison.flip).map (Comparison.eval record) ++
      evalAll record (composites.map flip) =
      (comparisons.map (Comparison.eval record) ++ evalAll record composites).map
        (Except.map not) := by
    rw [evalAll_eq_map, evalAll_eq_map, List.map_append]
    simp only [List.map_map]
    congr 2
    · funext c
      exact c.eval_flip record
    · funext c
      exact c.eval_flip record
  rw [dual, eval, eval, opposite, LogicalOp.combine_dual]
  cases op.combine (comparisons.map (Comparison.eval record) ++ evalAll record composites) <;> simp

/-- De Morgan's law at one node of a tree. -/
inductive Step : Composite → Composite → Prop where
  | here (c : Composite) : Step c c.dual
  | inside (op : LogicalOp) (comparisons : List Comparison) (before after : List Composite)
    (negated : Bool) {c c' : Composite} (h : Step c c') :
    Step (.node op comparisons (before ++ c :: after) negated)
      (.node op comparisons (before ++ c' :: after) negated)

theorem Step.eval_eq {c c' : Composite} (h : c.Step c') (record : Record) :
    c'.eval record = c.eval record := by
  induction h with
  | here c => exact c.eval_dual record
  | inside op comparisons before after negated h ih =>
    rw [eval, eval]
    simp only [evalAll_eq_map, List.map_append, List.map_cons, ih]

end Composite

namespace FilterNode

/-- De Morgan's law at one composite node of a filter. -/
inductive Step : FilterNode → FilterNode → Prop where
  | composite {c c' : Composite} (h : c.Step c') : Step (.composite c) (.composite c')

/-- The second filter comes from the first by De Morgan's laws, at any nodes and any number of
times. -/
abbrev Rewrites : FilterNode → FilterNode → Prop :=
  ReflTransGen Step

theorem Rewrites.eval_eq {node node' : FilterNode} (h : node.Rewrites node') (record : Record) :
    node'.eval record = node.eval record := by
  induction h with
  | refl => rfl
  | tail _ step ih =>
    cases step with
    | composite h => exact (h.eval_eq record).trans ih

/-- The opposite filter. -/
def flip : FilterNode → FilterNode
  | .comparison c => .comparison c.flip
  | .composite c => .composite c.flip

theorem filterMap_comparison?_flip (nodes : List FilterNode) :
    (nodes.map flip).filterMap comparison? =
      (nodes.filterMap comparison?).map Comparison.flip := by
  rw [List.filterMap_map, List.map_filterMap]
  congr 1
  funext node
  cases node <;> rfl

theorem filterMap_composite?_flip (nodes : List FilterNode) :
    (nodes.map flip).filterMap composite? = (nodes.filterMap composite?).map Composite.flip := by
  rw [List.filterMap_map, List.map_filterMap]
  congr 1
  funext node
  cases node <;> rfl

end FilterNode

namespace Composite

variable (op : LogicalOp) (nodes before after : List FilterNode) (negated : Bool)

theorem dual_ofChildren : (ofChildren op nodes !negated).dual =
    ofChildren op.dual (nodes.map FilterNode.flip) negated := by
  rw [ofChildren, dual, ofChildren, FilterNode.filterMap_comparison?_flip,
    FilterNode.filterMap_composite?_flip, Bool.not_not]

/-- A child may be rewritten in its node. -/
theorem rewrites_ofChildren {node node' : FilterNode} (h : node.Rewrites node') :
    (FilterNode.composite (ofChildren op (before ++ node :: after) negated)).Rewrites
      (.composite (ofChildren op (before ++ node' :: after) negated)) := by
  refine ReflTransGen.lift
    (fun node => FilterNode.composite (ofChildren op (before ++ node :: after) negated))
    (fun a b step => ?_) _ _ h
  cases step with
  | composite step =>
    simp only [ofChildren, List.filterMap_append, List.filterMap_cons, FilterNode.comparison?,
      FilterNode.composite?]
    exact .composite (.inside _ _ _ _ _ step)

end Composite

/-! ### On documents -/

namespace Json

/-- The filter that holds when this one does not. -/
def negate (filter : Json) : Json :=
  .object [("NEGATE", filter)]

/-- The filter that combines filters. -/
def combine (op : LogicalOp) (filters : List Json) : Json :=
  .object [(op.name, .array filters)]

end Json

/-- A filter document with a hole for a filter. -/
inductive FilterHole where
  | here
  | negate (inner : FilterHole)
  | combine (op : LogicalOp) (before : List Json) (inner : FilterHole) (after : List Json)

/-- Puts a filter into the hole. -/
def FilterHole.fill (filter : Json) : FilterHole → Json
  | here => filter
  | negate inner => (inner.fill filter).negate
  | combine op before inner after => .combine op (before ++ inner.fill filter :: after)

namespace Scope

variable {scope : Scope}

theorem comparison_not (op : ComparisonOp) (negated : Bool) (body : Json) :
    scope.comparison op (!negated) body =
      (scope.comparison op negated body).map Comparison.flip := by
  unfold comparison
  cases asObject op.name body with
  | error e => rfl
  | ok members =>
    rw [ok_bind, ok_bind]
    cases asEntry op.name members with
    | error e => rfl
    | ok entry =>
      obtain ⟨key, value⟩ := entry
      rw [ok_bind, ok_bind]
      dsimp only
      cases scope.resolveWithValue key value with
      | error e => rfl
      | ok field =>
        rw [ok_bind, ok_bind]
        cases operand op field.fieldType key value <;> rfl

/-- A negation around a filter turns the filter round and does not change how reading it fails. -/
theorem filter_not (negated : Bool) (json : Json) :
    scope.filter (!negated) json = (scope.filter negated json).map FilterNode.flip := by
  refine (Scope.filter.mutual_induct (fun negated json =>
    scope.filter (!negated) json = (scope.filter negated json).map FilterNode.flip)
    (fun _ => True) ?_ ?_ ?_ ?_ ?_ ?_ ?_ ?_ ?_).1 negated json
  case refine_1 =>
    intro negated key body op hop
    rw [← ComparisonOp.name_of_ofName? hop, filter_comparison, filter_comparison, comparison_not]
    cases scope.comparison op negated body <;> rfl
  case refine_2 =>
    intro negated key hcomparison op hop item items _ _
    rw [← LogicalOp.name_of_ofName? hop, filter_composite op _ (List.cons_ne_nil item items),
      filter_composite op _ (List.cons_ne_nil item items)]
    cases scope.filters (item :: items) <;> rfl
  case refine_3 =>
    intro negated key body hcomparison op hop hbody
    simp only [Scope.filter, hcomparison, hop, map_error]
  case refine_4 =>
    intro negated body _ _ inner
    rw [filter_negate, filter_negate, inner]
  case refine_5 =>
    intro negated key body hcomparison hlogical hkey
    simp only [Scope.filter, hcomparison, hlogical, if_neg hkey, map_error]
  case refine_6 =>
    intro negated members hmembers
    rw [Scope.filter, Scope.filter, map_error]
    · exact hmembers
    · exact hmembers
  case refine_7 =>
    intro json negated hentry hmembers
    rw [Scope.filter, Scope.filter, map_error]
    · exact hentry
    · exact hmembers
    · exact hentry
    · exact hmembers
  case refine_8 => exact trivial
  case refine_9 => exact fun _ _ _ _ => trivial

theorem filters_append (before after : List Json) (item : Json) :
    scope.filters (before ++ item :: after) = (do
      let nodes ← scope.filters before
      let node ← scope.filter false item
      let others ← scope.filters after
      return nodes ++ node :: others) := by
  induction before with
  | nil => rfl
  | cons first before ih =>
    rw [List.cons_append, filters, filters, ih]
    simp only [bind_assoc, pure_bind, List.cons_append]

/-- Filters are read into opposite ones under a negation each. -/
theorem filters_negate (items : List Json) :
    scope.filters (items.map Json.negate) =
      (scope.filters items).map (List.map FilterNode.flip) := by
  induction items with
  | nil => rfl
  | cons item items ih =>
    rw [List.map_cons, filters, filters, ih]
    have first : scope.filter false item.negate =
        (scope.filter false item).map FilterNode.flip :=
      (filter_negate false item).trans (filter_not false item)
    rw [first]
    cases scope.filter false item with
    | error e => rfl
    | ok node => cases scope.filters items <;> rfl

/-- De Morgan's law on a document: the two filters are refused for the same reason, or the second is
read into what the law makes of the first. -/
theorem agree_filter_dual (op : LogicalOp) {items : List Json} (filled : items ≠ [])
    (negated : Bool) :
    Agree FilterNode.Rewrites (scope.filter negated (Json.combine op items).negate)
      (scope.filter negated (Json.combine op.dual (items.map Json.negate))) := by
  rw [Json.negate, filter_negate, Json.combine, Json.combine, filter_composite op _ filled,
    filter_composite op.dual _ (List.map_eq_nil_iff.not.2 filled), filters_negate]
  cases scope.filters items with
  | error e => exact .error e
  | ok nodes =>
    refine .ok (.single (.composite ?_))
    rw [← Composite.dual_ofChildren]
    exact .here _

/-- Filters that may stand for each other may do so inside a filter. -/
theorem agree_filter_fill {filter filter' : Json}
    (h : ∀ negated, Agree FilterNode.Rewrites (scope.filter negated filter)
      (scope.filter negated filter')) (hole : FilterHole) (negated : Bool) :
    Agree FilterNode.Rewrites (scope.filter negated (hole.fill filter))
      (scope.filter negated (hole.fill filter')) := by
  induction hole generalizing negated with
  | here => exact h negated
  | negate inner ih =>
    rw [FilterHole.fill, FilterHole.fill, Json.negate, Json.negate, filter_negate, filter_negate]
    exact ih _
  | combine op before inner after ih =>
    rw [FilterHole.fill, FilterHole.fill, Json.combine, Json.combine,
      filter_composite op negated (by simp), filter_composite op negated (by simp),
      filters_append, filters_append]
    refine Agree.map (R := fun nodes nodes' => ∃ first node node' last, node.Rewrites node' ∧
      nodes = first ++ node :: last ∧ nodes' = first ++ node' :: last) ?_ ?_
    · refine .bind_self fun first => (ih false).bind fun node node' rewrites => ?_
      exact .bind_self fun last => .ok ⟨first, node, node', last, rewrites, rfl, rfl⟩
    · rintro _ _ ⟨first, node, node', last, rewrites, rfl, rfl⟩
      exact Composite.rewrites_ofChildren op first last negated rewrites

end Scope

/-! ### On queries -/

namespace FilterHole

theorem exists_fill_eq (hole : FilterHole) (entry : String × Json) :
    ∃ filled, hole.fill (.object [entry]) = .object [filled] := by
  cases hole with
  | here => exact ⟨entry, rfl⟩
  | negate inner => exact ⟨_, rfl⟩
  | combine op before inner after => exact ⟨_, rfl⟩

end FilterHole

/-- The query document of these members with this filter. -/
def Json.query (members : Entries Json) (filter : Json) : Json :=
  .object (members.insert "FILTER" filter)

section Filtered

variable (members : Entries Json) (entry entry' : String × Json)

theorem hasExactly_insert (names : List String) :
    hasExactly names (members.insert "FILTER" (.object [entry])) =
      hasExactly names (members.insert "FILTER" (.object [entry'])) := by
  unfold hasExactly
  rw [Entries.length_insert_congr "FILTER" (Json.object [entry]) (.object [entry'])]
  congr 2
  funext name
  rw [Entries.find?_insert, Entries.find?_insert]
  split <;> rfl

/-- The other clauses do not depend on which filter it is. -/
theorem QueryClauses.ofJson_query : ofJson (Json.query members (.object [entry'])) =
    (ofJson (Json.query members (.object [entry]))).map fun clauses =>
      { clauses with filter := .object [entry'] } := by
  have keys : checkKeys (members.insert "FILTER" (.object [entry'])) =
      checkKeys (members.insert "FILTER" (.object [entry])) := by
    unfold checkKeys
    rw [hasExactly_insert members entry' entry, hasExactly_insert members entry' entry]
  have object (members : Entries Json) : asObject "Query" (.object members) = .ok members := rfl
  unfold ofJson Json.query
  simp only [object, ok_bind, keys, Entries.find?_insert, if_true, String.reduceEq, if_false,
    Option.getD_some]
  cases checkKeys (members.insert "FILTER" (.object [entry])) with
  | error e => rfl
  | ok transformed =>
    rw [ok_bind, ok_bind]
    cases asObject "OPTIONS" ((members.find? "OPTIONS").getD .null) with
    | error e => rfl
    | ok options =>
      rw [ok_bind, ok_bind]
      cases checkOptions options <;> rfl

end Filtered

namespace QueryPlan

/-- The plans differ in how they put the filter. -/
def Restates (plan plan' : QueryPlan) : Prop :=
  ∃ filter, plan' = { plan with filter } ∧ Option.Rel FilterNode.Rewrites plan.filter filter

theorem matching_congr {filter filter' : Option FilterNode}
    (h : Option.Rel FilterNode.Rewrites filter filter') (records : List Record) :
    matching filter' records = matching filter records := by
  induction records with
  | nil => rfl
  | cons record records ih =>
    cases h with
    | none => rfl
    | some rewrites => simp only [matching, ih, rewrites.eval_eq]

theorem Restates.execute_eq {plan plan' : QueryPlan} (h : plan.Restates plan')
    (datasets : Datasets) (limit : Nat) :
    plan'.execute datasets limit = plan.execute datasets limit := by
  obtain ⟨filter, rfl, rewrites⟩ := h
  unfold execute
  simp only [matching_congr rewrites]
  rfl

end QueryPlan

section Answers

theorem Scope.agree_filterClause {scope : Scope} {entry entry' : String × Json}
    (h : Agree FilterNode.Rewrites (scope.filter false (.object [entry]))
      (scope.filter false (.object [entry']))) :
    Agree (Option.Rel FilterNode.Rewrites) (scope.filterClause (.object [entry]))
      (scope.filterClause (.object [entry'])) :=
  h.bind fun _ _ rewrites => .ok (.some rewrites)

/-- Filters that may stand for each other in every scope may do so in a query document. -/
theorem Datasets.agree_parse {entry entry' : String × Json}
    (h : ∀ scope : Scope, Agree FilterNode.Rewrites (scope.filter false (.object [entry]))
      (scope.filter false (.object [entry']))) (datasets : Datasets) (members : Entries Json) :
    Agree QueryPlan.Restates (datasets.parse (Json.query members (.object [entry])))
      (datasets.parse (Json.query members (.object [entry']))) := by
  unfold Datasets.parse QueryPlan.ofJson
  rw [QueryClauses.ofJson_query members entry entry']
  cases hclauses : QueryClauses.ofJson (Json.query members (.object [entry])) with
  | error e => exact .error e
  | ok clauses =>
    have hfilter : clauses.filter = .object [entry] := by
      have same := QueryClauses.ofJson_query members entry entry
      rw [hclauses, map_ok, Except.ok.injEq] at same
      exact congrArg QueryClauses.filter same
    rw [map_ok, ok_bind, ok_bind]
    refine .bind_self fun columns => .bind_self fun scope => .bind_self fun _ => ?_
    rw [hfilter]
    refine (scope.agree_filterClause (h scope)).bind fun filter filter' rewrites => ?_
    cases clauses.order <;> cases clauses.transform <;>
      exact .bind_self fun sort => .bind_self fun groups => .ok ⟨filter', rfl, rewrites⟩

/-- Filters that may stand for each other in every scope give queries of the same answer. -/
theorem Datasets.query_eq {entry entry' : String × Json}
    (h : ∀ scope : Scope, Agree FilterNode.Rewrites (scope.filter false (.object [entry]))
      (scope.filter false (.object [entry']))) (datasets : Datasets) (limit : Nat)
    (members : Entries Json) :
    datasets.query limit (Json.query members (.object [entry'])) =
      datasets.query limit (Json.query members (.object [entry])) := by
  have parsed := datasets.agree_parse h members
  unfold Datasets.query
  generalize datasets.parse (Json.query members (.object [entry])) = plan at parsed ⊢
  generalize datasets.parse (Json.query members (.object [entry'])) = plan' at parsed ⊢
  cases parsed with
  | error e => rfl
  | ok restates => simp only [ok_bind, restates.execute_eq]

end Answers

/-! ### Main statement -/

/-- De Morgan's laws do not change results. Rewritten at any nodes of a tree they leave its result
on every record, also an error and also on records of the wrong shape; and the two sides of a law,
written at any place of a filter document, are refused for the same reason or read into such trees,
so that queries with them have the same answer. -/
theorem eval_query_eq_of_deMorgan :
    (∀ node node' : FilterNode, node.Rewrites node' →
      ∀ record, node'.eval record = node.eval record) ∧
    ∀ (hole : FilterHole) (op : LogicalOp) (item : Json) (items : List Json),
      let outside := hole.fill (Json.combine op (item :: items)).negate
      let inside := hole.fill (Json.combine op.dual ((item :: items).map Json.negate))
      (∀ (scope : Scope) (negated : Bool),
        Agree (fun node node' => node.Rewrites node' ∧
            ∀ record : Record, node'.eval record = node.eval record)
          (scope.filter negated outside) (scope.filter negated inside)) ∧
      ∀ (datasets : Datasets) (limit : Nat) (members : Entries Json),
        datasets.query limit (Json.query members inside) =
          datasets.query limit (Json.query members outside) := by
  refine ⟨fun node node' h record => h.eval_eq record, fun hole op item items => ?_⟩
  have read (scope : Scope) (negated : Bool) := scope.agree_filter_fill
    (fun negated => scope.agree_filter_dual op (List.cons_ne_nil item items) negated) hole negated
  refine ⟨fun scope negated => (read scope negated).imp fun _ _ h => ⟨h, h.eval_eq⟩, ?_⟩
  intro datasets limit members
  obtain ⟨entry, outside⟩ := hole.exists_fill_eq ("NEGATE", .combine op (item :: items))
  obtain ⟨entry', inside⟩ :=
    hole.exists_fill_eq (op.dual.name, .array ((item :: items).map Json.negate))
  simp only [Json.negate, Json.combine] at read outside inside ⊢
  simp only [outside, inside] at read ⊢
  exact datasets.query_eq (fun scope => read scope false) limit members

/-- Sections with an average above 90 whose department is neither `math` nor `cpsc`. -/
def sampleTree : Composite :=
  .node .allOf [⟨⟨"cs", .course .avg⟩, .greaterThan, .number 90, false⟩]
    [.node .anyOf [⟨⟨"cs", .course .dept⟩, .equals, .text "math", false⟩,
      ⟨⟨"cs", .course .dept⟩, .equals, .text "cpsc", false⟩] [] true] false

/-- A law at the inner node and then one at the root. The record that passes the first comparison
and has no department fails the scan either way. -/
theorem eval_query_eq_of_deMorgan_sample : ∃ c : Composite,
    sampleTree.Step c ∧ (FilterNode.composite sampleTree).Rewrites (.composite c.dual) ∧
      (FilterNode.composite c.dual).eval (sampleSection 91.5 0 "phil") = .ok true ∧
      (FilterNode.composite c.dual).eval (Dictionary.empty.insert "avg" (.number 91.5)) =
        .error (.fieldMissing ⟨"cs", .course .dept⟩) := by
  have inner : sampleTree.Step _ := .inside .allOf _ [] [] false (.here _)
  have rewrites : (FilterNode.composite sampleTree).Rewrites _ :=
    .tail (.single (.composite inner)) (.composite (.here _))
  have same := eval_query_eq_of_deMorgan.1 _ _ rewrites
  exact ⟨_, inner, rewrites, (same _).trans rfl, (same _).trans rfl⟩

end CampusQuery
