import CampusQuery.Data.Dataset
import CampusQuery.Query.Document
import CampusQuery.Query.Result

/-! Queries run on datasets. -/

namespace CampusQuery

/-- The most rows that a query returns if no limit is set. -/
def defaultLimit : Nat := 5000

structure ExecutionResult where
  rows : List Row
  /-- Records looked at. -/
  scanned : Nat
  /-- Records that passed the filter. -/
  matched : Nat

namespace QueryPlan

/-- Runs a plan on the dataset that it names. -/
def execute (plan : QueryPlan) (datasets : Datasets) (limit : Nat) : QueryResult ExecutionResult :=
  match datasets plan.datasetId with
  | none => .error (.datasetNotFound plan.datasetId)
  | some dataset => do
    let records ← matching plan.filter dataset.records
    let rows ← plan.format limit records
    return ⟨rows, dataset.records.length, records.length⟩

end QueryPlan

/-- Reads a query document against the datasets. -/
def Datasets.parse (datasets : Datasets) (query : Json) : QueryResult QueryPlan :=
  QueryPlan.ofJson (fun id => (datasets id).map Dataset.kind) query

/-- Answers a query document. -/
def Datasets.query (datasets : Datasets) (limit : Nat) (query : Json) : QueryResult (List Row) := do
  let plan ← datasets.parse query
  let result ← plan.execute datasets limit
  return result.rows

end CampusQuery
