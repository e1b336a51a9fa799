import CampusQuery.Data.Value
import CampusQuery.Query.Wildcard
import CampusQuery.Schema.Key

/-!
Query plans: what a query document means once its keys are resolved. A plan may also be made by
hand, so nothing here says that an operand fits its field.
-/

namespace CampusQuery

inductive ComparisonOp where
  | lessThan
  | greaterThan
  | equals
  | wildcard
  deriving DecidableEq

inductive LogicalOp where
  | allOf
  | anyOf
  deriving DecidableEq

inductive AggregateOp where
  | max
  | min
  | avg
  | sum
  | count
  deriving DecidableEq

inductive SortDirection where
  | ascending
  | descending
  deriving DecidableEq

namespace ComparisonOp

def name : ComparisonOp → String
  | lessThan => "LESS_THAN"
  | greaterThan => "GREATER_THAN"
  | equals => "EQUALS"
  | wildcard => "MATCHES"

def ofName? (name : String) : Option ComparisonOp :=
  [lessThan, greaterThan, equals, wildcard].find? (·.name = name)

end ComparisonOp

namespace LogicalOp

def name : LogicalOp → String
  | allOf => "ALL_OF"
  | anyOf => "ANY_OF"

def ofName? (name : String) : Option LogicalOp :=
  [allOf, anyOf].find? (·.name = name)

/-- The operator that De Morgan's laws exchange for this one. -/
def dual : LogicalOp → LogicalOp
  | allOf => anyOf
  | anyOf => allOf

end LogicalOp

namespace AggregateOp

def name : AggregateOp → String
  | max => "MAX"
  | min => "MIN"
  | avg => "AVG"
  | sum => "SUM"
  | count => "COUNT"

def ofName? (name : String) : Option AggregateOp :=
  [max, min, avg, sum, count].find? (·.name = name)

/-- Counting works on every field. -/
def requiresNumeric : AggregateOp → Bool
  | count => false
  | _ => true

end AggregateOp

namespace SortDirection

instance : Inhabited SortDirection := ⟨ascending⟩

def name : SortDirection → String
  | ascending => "ASCENDING"
  | descending => "DESCENDING"

def ofName? (name : String) : Option SortDirection :=
  [ascending, descending].find? (·.name = name)

end SortDirection

/-- The right-hand side of a comparison. -/
inductive Operand where
  | number (value : Float)
  | text (value : String)
  | pattern (value : Wildcard)

/-- The operand in a message. -/
def Operand.describe : Operand → String
  | .number x => "Number(" ++ NumberLayout.exact.render x ++ ")"
  | .text s => "Text(" ++ quoted s ++ ")"
  | .pattern w => "Pattern(" ++ w.describe ++ ")"

structure Comparison where
  field : FieldRef
  op : ComparisonOp
  operand : Operand
  negated : Bool

/-- A node over comparisons and further nodes, which are kept apart. -/
inductive Composite where
  | node (op : LogicalOp) (comparisons : List Comparison) (composites : List Composite)
    (negated : Bool)

inductive FilterNode where
  | comparison (c : Comparison)
  | composite (c : Composite)

structure AggregateSpec where
  name : String
  op : AggregateOp
  target : FieldRef
  deriving DecidableEq

/-- Keys in order of importance; without keys, rows stay where they are. -/
structure SortSpec where
  direction : SortDirection := .ascending
  keys : List String := []
  deriving DecidableEq

structure QueryPlan where
  datasetId : String
  /-- Without a filter every record matches. -/
  filter : Option FilterNode
  columns : List String
  sort : SortSpec
  group : List FieldRef
  aggregates : List AggregateSpec

/-- Whether rows stand for groups of records. -/
def QueryPlan.isGrouped (plan : QueryPlan) : Bool :=
  !plan.group.isEmpty

end CampusQuery
