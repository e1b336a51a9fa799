import CampusQuery.Data.Sorting
import CampusQuery.Query.Group

/-!
Rows of a query's result: columns are checked, rows are made, counted, sorted and cut to the
columns, in this order.
-/

namespace CampusQuery

/-- A missing value comes before every value. -/
def compareCells : Option FieldValue → Option FieldValue → Ordering
  | none, none => .eq
  | none, some _ => .lt
  | some _, none => .gt
  | some a, some b => a.compare b

/-- The first key on which the rows differ decides. -/
def Row.compareBy (keys : List String) (a b : Row) : Ordering :=
  match keys with
  | [] => .eq
  | key :: rest => (compareCells (a.get? key) (b.get? key)).then (compareBy rest a b)

namespace SortSpec

/-- The order of rows; descending turns the whole comparison round. -/
def compareRows (spec : SortSpec) (a b : Row) : Ordering :=
  match spec.direction with
  | .ascending => a.compareBy spec.keys b
  | .descending => (a.compareBy spec.keys b).swap

/-- Sorts rows; equal rows keep their order in both directions. -/
def sort (spec : SortSpec) (rows : List Row) : List Row :=
  if spec.keys.isEmpty then rows else stableSort spec.compareRows rows

end SortSpec

namespace QueryPlan

/-- In a grouped query a column is a group key or the name of an aggregate. -/
def isGroupColumn (plan : QueryPlan) (column : String) : Bool :=
  plan.group.any (·.key = column) || plan.aggregates.any (·.name = column)

def checkColumns (plan : QueryPlan) : QueryResult Unit :=
  if plan.isGrouped then
    match plan.columns.find? fun column => !plan.isGroupColumn column with
    | some column => .error (.ungroupedColumn column)
    | none => .ok ()
  else .ok ()

def checkSortKeys (plan : QueryPlan) : QueryResult Unit :=
  match plan.sort.keys.find? fun key => key ∉ plan.columns with
  | some key => .error (.unlistedOrderKey key)
  | none => .ok ()

/-- The record's fields under their qualified keys. -/
def qualifyRecord (plan : QueryPlan) (record : Record) : Row :=
  ⟨record.entries.map fun entry => (qualify plan.datasetId entry.1, entry.2)⟩

/-- The row's values of the columns. -/
def project (plan : QueryPlan) (row : Row) : QueryResult Row := do
  let cells ← plan.columns.mapM fun column =>
    match row.get? column with
    | some value => .ok (column, value)
    | none => .error (.columnMissing column)
  return ⟨cells⟩

def checkLimit (limit count : Nat) : QueryResult Unit :=
  if limit < count then .error (.resultTooLarge limit) else .ok ()

/-- All rows, with all their columns. -/
def fullRows (plan : QueryPlan) (limit : Nat) (records : List Record) : QueryResult (List Row) := do
  if plan.isGrouped then plan.aggregate limit records
  else
    checkLimit limit records.length
    return records.map plan.qualifyRecord

/-- The result rows of the records that passed the filter. -/
def format (plan : QueryPlan) (limit : Nat) (records : List Record) : QueryResult (List Row) := do
  plan.checkColumns
  let rows ← plan.fullRows limit records
  checkLimit limit rows.length
  plan.checkSortKeys
  (plan.sort.sort rows).mapM plan.project

end QueryPlan

end CampusQuery
