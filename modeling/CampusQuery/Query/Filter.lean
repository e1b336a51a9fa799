import CampusQuery.Data.Record
import CampusQuery.Query.Error

/-!
Filters on records. A node looks at its own comparisons before its composites and stops at the
first child that decides it, so a child that would fail is not reached after that.
-/

namespace CampusQuery

/-- The record's value of a field, which must have the field's type. -/
def Record.valueOf (record : Record) (ref : FieldRef) : QueryResult FieldValue :=
  match record.find? ref.field.name with
  | none => .error (.fieldMissing ref)
  | some value => if ref.fieldType.holds value then .ok value else .error (.fieldMistyped ref value)

/-- What a comparison says of a value, where it says anything. -/
def Operand.compare? (op : ComparisonOp) (operand : Operand) (value : FieldValue) : Option Bool :=
  match op, operand, value with
  | .lessThan, .number bound, .number x => some (decide (x < bound))
  | .greaterThan, .number bound, .number x => some (decide (bound < x))
  | .equals, .number expected, .number x => some (x == expected)
  | .equals, .text expected, .text s => some (s == expected)
  | .wildcard, .pattern w, .text s => some (w.isMatch s)
  | _, _, _ => none

namespace Comparison

/-- The comparison before its negation. -/
def test (record : Record) (c : Comparison) : QueryResult Bool := do
  let value ← record.valueOf c.field
  match c.operand.compare? c.op value with
  | some result => return result
  | none => throw (.incomparable c.field c.op value c.operand)

def eval (record : Record) (c : Comparison) : QueryResult Bool :=
  (c.test record).map (· != c.negated)

end Comparison

namespace LogicalOp

/-- The result of a child that settles the node. -/
def decisive : LogicalOp → Bool
  | allOf => false
  | anyOf => true

/-- The children's results up to the first that settles the node or fails. -/
def combine (op : LogicalOp) : List (QueryResult Bool) → QueryResult Bool
  | [] => .ok (!op.decisive)
  | .error e :: _ => .error e
  | .ok result :: rest => if result = op.decisive then .ok op.decisive else op.combine rest

end LogicalOp

namespace Composite

mutual

def eval (record : Record) : Composite → QueryResult Bool
  | .node op comparisons composites negated =>
    (op.combine (comparisons.map (Comparison.eval record) ++ evalAll record composites)).map
      (· != negated)

def evalAll (record : Record) : List Composite → List (QueryResult Bool)
  | [] => []
  | c :: cs => eval record c :: evalAll record cs

end

end Composite

namespace FilterNode

/-- Whether a record passes. -/
def eval (record : Record) : FilterNode → QueryResult Bool
  | .comparison c => c.eval record
  | .composite c => c.eval record

end FilterNode

/-- The records that pass, in order; the first record that cannot be judged fails the scan. -/
def matching (filter : Option FilterNode) : List Record → QueryResult (List Record)
  | [] => .ok []
  | record :: records => do
    let keep ← match filter with
      | some node => node.eval record
      | none => pure true
    let others ← matching filter records
    return if keep then record :: others else others

end CampusQuery
