import CampusQuery.Proofs.Data.Lists
import CampusQuery.Proofs.Query.Filters
import CampusQuery.Proofs.Query.Wildcard

/-!
What filter documents mean. The reading of a document on a record follows the document alone; main
statement: the filter that a document is read into selects exactly the records of the reading.
-/

namespace CampusQuery

/-- The record's value of the field that stands after the underscore of a key. -/
def Record.referenced? (record : Record) (key : String) : Option FieldValue :=
  (splitKey? key).bind fun parts => record.find? parts.2

/-- A comparison of a value with an operand. -/
def comparisonHolds (name : String) (operand : Json) (value : FieldValue) : Bool :=
  match operand, value with
  | .number bound, .number x =>
    (name = "LESS_THAN" && x < bound.toDouble) || (name = "GREATER_THAN" && bound.toDouble < x) ||
      (name = "EQUALS" && x == bound.toDouble)
  | .string pattern, .text s =>
    (name = "EQUALS" && s = pattern) || (name = "MATCHES" && fitsWildcard pattern s)
  | _, _ => false

namespace Json

mutual

/-- Whether a filter document selects the record. -/
def selects (record : Record) : Json → Bool
  | .object [(name, body)] =>
    if name = "NEGATE" then !selects record body
    else match body with
      | .array children =>
        if name = "ALL_OF" then selectsEvery record children
        else name = "ANY_OF" && selectsSome record children
      | .object [(key, operand)] => (record.referenced? key).any (comparisonHolds name operand)
      | _ => false
  | _ => false

def selectsEvery (record : Record) : List Json → Bool
  | [] => true
  | child :: children => selects record child && selectsEvery record children

def selectsSome (record : Record) : List Json → Bool
  | [] => false
  | child :: children => selects record child || selectsSome record children

end

theorem selectsEvery_iff {record : Record} {children : List Json} :
    selectsEvery record children = true ↔ ∀ child ∈ children, child.selects record = true := by
  induction children with
  | nil => simp [selectsEvery]
  | cons child children ih => simp [selectsEvery, ih]

theorem selectsSome_iff {record : Record} {children : List Json} :
    selectsSome record children = true ↔ ∃ child ∈ children, child.selects record = true := by
  induction children with
  | nil => simp [selectsSome]
  | cons child children ih => simp [selectsSome, ih]

end Json

/-- An operand that was accepted for a field says of the field's values what the document says. -/
theorem Operand.compare?_of_operand {op : ComparisonOp} {type : FieldType} {key : String}
    {json : Json} {operand : Operand} {value : FieldValue}
    (h : Scope.operand op type key json = .ok operand) (holds : type.holds value = true) :
    operand.compare? op value = some (comparisonHolds op.name json value) := by
  have htype : value.fieldType = type := by simpa [FieldType.holds] using holds
  cases Scope.operand_iff.1 h <;> cases value
  case wildcard.text pattern w compiled s =>
    simp [Operand.compare?, comparisonHolds, ComparisonOp.name,
      Wildcard.isMatch_of_compile compiled]
  case equalsText.text => simp [Operand.compare?, comparisonHolds, ComparisonOp.name, beq_eq_decide]
  case lessThan.number | greaterThan.number | equalsNumber.number =>
    simp [Operand.compare?, comparisonHolds, ComparisonOp.name]
  all_goals contradiction

namespace Comparison

/-- A comparison that was read from a document follows the document. -/
theorem eval_of_comparison {scope : Scope} {record : Record} {op : ComparisonOp}
    {negated : Bool} {body : Json} {c : Comparison} (hrecord : record.WellFormed scope.kind)
    (h : scope.comparison op negated body = .ok c) :
    c.eval record = .ok (Json.selects record (.object [(op.name, body)]) ^^ negated) := by
  obtain ⟨json, rfl, owned, hoperand, rfl, rfl⟩ := Scope.comparison_iff.1 h
  obtain ⟨hsplit, -, hkind⟩ := Scope.resolve_eq_ok.1 (Scope.resolve_iff.2 ⟨rfl, owned⟩)
  obtain ⟨value, hvalue, holds, hvalueOf⟩ := hrecord.valueOf_eq_ok hkind
  have hcompare := Operand.compare?_of_operand hoperand holds
  have hname : c.op.name ≠ "NEGATE" := by cases c.op <;> decide
  rw [Comparison.eval, Comparison.test, hvalueOf, ok_bind, hcompare, Json.selects, if_neg hname,
    Record.referenced?, hsplit, Option.bind_some, hvalue, Option.any_some]
  rfl

end Comparison

namespace LogicalOp

/-- Without a failure, the children settle a node when one of them has the decisive result. -/
theorem combine_eq_ok {op : LogicalOp} {results : List (QueryResult Bool)} {b : Bool}
    (h : ∀ result ∈ results, ∃ b, result = .ok b) :
    op.combine results = .ok b ↔ (b = op.decisive ↔ .ok op.decisive ∈ results) := by
  induction results with
  | nil => cases b <;> cases op <;> simp [combine, decisive]
  | cons result results ih =>
    obtain ⟨first, rfl⟩ := h _ List.mem_cons_self
    have others := ih fun other hother => h other (List.mem_cons_of_mem _ hother)
    simp only [combine]
    by_cases hfirst : first = op.decisive
    · simp [hfirst, eq_comm]
    · rw [if_neg hfirst, others]
      simp [Ne.symm hfirst]

end LogicalOp

namespace Composite

theorem evalAll_eq_map (record : Record) (composites : List Composite) :
    evalAll record composites = composites.map (eval record) := by
  induction composites with
  | nil => rfl
  | cons c composites ih => rw [evalAll, ih, List.map_cons]

/-- The results of a node's children, in the order in which they are looked at. -/
theorem mem_results_iff {record : Record} {children : List FilterNode} {result : QueryResult Bool} :
    result ∈ (children.filterMap FilterNode.comparison?).map (Comparison.eval record) ++
        evalAll record (children.filterMap FilterNode.composite?) ↔
      ∃ child ∈ children, child.eval record = result := by
  rw [evalAll_eq_map]
  simp only [List.mem_append, List.mem_map, FilterNode.mem_comparisons_iff,
    FilterNode.mem_composites_iff]
  constructor
  · rintro (⟨c, hc, rfl⟩ | ⟨c, hc, rfl⟩) <;> exact ⟨_, hc, rfl⟩
  · rintro ⟨node, hnode, rfl⟩
    cases node with
    | comparison c => exact .inl ⟨c, hnode, rfl⟩
    | composite c => exact .inr ⟨c, hnode, rfl⟩

/-- The order in which a node keeps its children does not show in its result. -/
theorem eval_ofChildren {record : Record} {op : LogicalOp} {children : List FilterNode}
    {negated b : Bool} (h : ∀ child ∈ children, ∃ b, child.eval record = .ok b)
    (hb : b = op.decisive ↔ ∃ child ∈ children, child.eval record = .ok op.decisive) :
    (Composite.ofChildren op children negated).eval record = .ok (b ^^ negated) := by
  have combined : op.combine ((children.filterMap FilterNode.comparison?).map
      (Comparison.eval record) ++ evalAll record (children.filterMap FilterNode.composite?)) =
      .ok b := by
    refine (LogicalOp.combine_eq_ok fun result hresult => ?_).2 (by rw [mem_results_iff, hb])
    obtain ⟨child, hchild, rfl⟩ := mem_results_iff.1 hresult
    exact h child hchild
  rw [Composite.ofChildren, eval, combined]
  rfl

end Composite

namespace Scope

/-- The reading of a node with children, in terms of the child that settles it. -/
theorem selects_children_iff {record : Record} {op : LogicalOp} {children : List Json} :
    Json.selects record (.object [(op.name, .array children)]) = op.decisive ↔
      ∃ child ∈ children, child.selects record = op.decisive := by
  cases op with
  | allOf =>
    have reading : Json.selects record (.object [("ALL_OF", .array children)]) =
        Json.selectsEvery record children := by simp [Json.selects]
    simp only [LogicalOp.name, LogicalOp.decisive, reading]
    rw [← Bool.not_eq_true, Json.selectsEvery_iff]
    simp
  | anyOf =>
    have reading : Json.selects record (.object [("ANY_OF", .array children)]) =
        Json.selectsSome record children := by simp [Json.selects]
    simp only [LogicalOp.name, LogicalOp.decisive, reading]
    exact Json.selectsSome_iff

/-- Nodes that follow their documents have the results of their documents. -/
theorem exists_eval_iff {record : Record} {nodes : List FilterNode} {items : List Json} {b : Bool}
    (h : List.Forall₂ (fun node item => node.eval record = .ok (item.selects record)) nodes items) :
    (∃ node ∈ nodes, node.eval record = .ok b) ↔ ∃ item ∈ items, item.selects record = b := by
  induction h with
  | nil => simp
  | cons head _ ih => simp [head, ih]

/-- Reading keeps the meaning: the node's result is the reading of the document, turned round when
the negations around it say so. -/
theorem eval_of_filter {scope : Scope} {record : Record} (hrecord : record.WellFormed scope.kind) :
    (∀ (negated : Bool) (json : Json) (node : FilterNode), scope.filter negated json = .ok node →
      node.eval record = .ok (json.selects record ^^ negated)) ∧
    ∀ (items : List Json) (nodes : List FilterNode), scope.filters items = .ok nodes →
      List.Forall₂ (fun node item => node.eval record = .ok (item.selects record)) nodes items := by
  have each : ∀ (negated : Bool) (json : Json) (node : FilterNode),
      scope.filter negated json = .ok node →
        node.eval record = .ok (json.selects record ^^ negated) := by
    apply filter_induction
    · exact fun op negated body c hc => Comparison.eval_of_comparison hrecord hc
    · intro op negated items nodes filled children
      have follows : List.Forall₂ (fun node item => node.eval record = .ok (item.selects record))
          nodes items := children.flip.imp fun node item h => by simpa using h
      refine Composite.eval_ofChildren (fun child hchild => ?_) ?_
      · obtain ⟨json, -, hjson⟩ := exists_of_mem_left follows hchild
        exact ⟨_, hjson⟩
      · rw [selects_children_iff, exists_eval_iff follows]
    · intro negated body node inner
      rw [inner]
      simp [Json.selects]
  refine ⟨each, fun items nodes h => ?_⟩
  rw [filters_eq_mapM, mapM_eq_ok_iff] at h
  exact h.flip.imp fun node item read => by simpa using each false item node read

end Scope

/-- A scan in which each record can be judged keeps the records that pass. -/
theorem matching_eq_ok {filter : Option FilterNode} {keeps : Record → Bool} {records : List Record}
    (h : ∀ node, filter = some node → ∀ record ∈ records, node.eval record = .ok (keeps record))
    (all : filter = none → ∀ record ∈ records, keeps record = true) :
    matching filter records = .ok (records.filter keeps) := by
  induction records with
  | nil => rfl
  | cons record records ih =>
    have others := ih (fun node hnode other hother => h node hnode other (.tail _ hother))
      (fun hnone other hother => all hnone other (.tail _ hother))
    cases filter with
    | none => simp [matching, others, all rfl record List.mem_cons_self]
    | some node =>
      simp [matching, others, List.filter_cons, h node rfl record List.mem_cons_self]

/-- The filter of a document follows the document on every record of the kind, so a scan keeps
exactly the records that the document selects. -/
theorem filter_follows_document {scope : Scope} {negated : Bool} {json : Json} {node : FilterNode}
    (h : scope.filter negated json = .ok node) :
    (∀ record : Record, record.WellFormed scope.kind →
      node.eval record = .ok (json.selects record ^^ negated)) ∧
    ∀ records : List Record, (∀ record ∈ records, record.WellFormed scope.kind) →
      matching (some node) records =
        .ok (records.filter fun record => json.selects record ^^ negated) := by
  have follows : ∀ record : Record, record.WellFormed scope.kind →
      node.eval record = .ok (json.selects record ^^ negated) := fun record hrecord =>
    (Scope.eval_of_filter hrecord).1 negated json node h
  refine ⟨follows, fun records hrecords => matching_eq_ok ?_ (by simp)⟩
  rintro _ ⟨⟩ record hrecord
  exact follows record (hrecords record hrecord)

/-- Sections that are not both good and taught by someone whose name starts with `h`. -/
def sampleFilter : Json :=
  .object [("NEGATE", .object [("ALL_OF", .array [
    .object [("ANY_OF", .array [
      .object [("GREATER_THAN", .object [("cs_avg", .number (.integer 90))])],
      .object [("EQUALS", .object [("cs_dept", .string "math")])]])],
    .object [("NEGATE", .object [("NEGATE",
      .object [("MATCHES", .object [("cs_instructor", .string "h*")])])])]])])]

theorem filter_follows_document_sample : ∃ node,
    (⟨.courses, "cs"⟩ : Scope).filter true sampleFilter = .ok node ∧
      node.eval (sampleSection 91.5 0 "cpsc") = .ok true := by
  obtain ⟨node, read⟩ : ∃ node, (⟨.courses, "cs"⟩ : Scope).filter true sampleFilter = .ok node :=
    ⟨_, rfl⟩
  have follows := (filter_follows_document read).1 _ (sampleSection_wellFormed 91.5 0 "cpsc")
  have reading : (sampleFilter.selects (sampleSection 91.5 0 "cpsc") ^^ true) = true := by decide
  rw [reading] at follows
  exact ⟨node, read, follows⟩

end CampusQuery
