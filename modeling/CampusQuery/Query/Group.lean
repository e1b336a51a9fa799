import Std.Data.TreeMap
import Std.Data.TreeSet
import CampusQuery.Number.Decimal
import CampusQuery.Query.Filter

/-!
Groups of records and the values computed for them. Two records are in one group when they agree
on every group field; groups come in the order in which they are first seen.
-/

namespace CampusQuery

-- Powers are those of natural numbers, not those of a monoid.
attribute [local instance (high)] instPowNat

/-- The codes of the values one after another. -/
def codeOf (values : List FieldValue) : String :=
  String.join (values.map FieldValue.code)

/-- The record's values of the group fields. -/
def groupKey (fields : List FieldRef) (record : Record) : QueryResult (List FieldValue) :=
  fields.mapM record.valueOf

/-- A group, with the values of the group fields in its first record. -/
structure Bucket where
  key : List FieldValue
  members : List Record

/-- Groups in the making. -/
structure Buckets where
  /-- The key of each group, newest first. -/
  keys : List (List FieldValue)
  /-- The members of each group, newest first, under the code of its key. -/
  members : Std.TreeMap String (List Record)

namespace Buckets

def empty : Buckets := ⟨[], ∅⟩

/-- Adds a record to the group of that key. A new group must not exceed the limit. -/
def add (limit : Nat) (key : List FieldValue) (record : Record) (buckets : Buckets) :
    QueryResult Buckets :=
  let code := codeOf key
  match buckets.members[code]? with
  | some members =>
    .ok { buckets with members := buckets.members.insert code (record :: members) }
  | none =>
    if limit ≤ buckets.members.size then .error (.resultTooLarge limit)
    else .ok ⟨key :: buckets.keys, buckets.members.insert code [record]⟩

/-- The groups in the order in which they came up. -/
def toList (buckets : Buckets) : List Bucket :=
  buckets.keys.reverse.map fun key => ⟨key, (buckets.members.getD (codeOf key) []).reverse⟩

@[simp] theorem toList_empty : empty.toList = [] := rfl

end Buckets

/-- The groups of the records. -/
def groupRecords (limit : Nat) (fields : List FieldRef) (records : List Record) :
    QueryResult (List Bucket) := do
  let addRecord (buckets : Buckets) (record : Record) : QueryResult Buckets := do
    buckets.add limit (← groupKey fields record) record
  let buckets ← records.foldlM addRecord .empty
  return buckets.toList

/-- The larger number; one that is not a number does not count. -/
def largerNumber (a b : Float) : Float :=
  if a.isNaN then b else if b.isNaN then a else if a < b then b else a

/-- The smaller number; one that is not a number does not count. -/
def smallerNumber (a b : Float) : Float :=
  if a.isNaN then b else if b.isNaN then a else if b < a then b else a

def infinity : Float :=
  ofMagnitude false (2047 * 2 ^ (52 : Nat))

namespace AggregateSpec

/-- The values of the target field. -/
def targets (spec : AggregateSpec) (members : List Record) : QueryResult (List FieldValue) :=
  members.mapM fun record => record.valueOf spec.target

/-- The numbers of the target field. -/
def numbers (spec : AggregateSpec) (members : List Record) : QueryResult (List Float) :=
  members.mapM fun record => do
    match (← record.valueOf spec.target).number? with
    | some x => return x
    | none => throw (.notSummable spec)

/-- How many different values there are. -/
def countDistinct (values : List FieldValue) : Nat :=
  (Std.TreeSet.ofList (values.map FieldValue.code)).size

/-- The value of an aggregate over the members of a group. -/
def compute (spec : AggregateSpec) (members : List Record) : QueryResult FieldValue :=
  match spec.op with
  | .count => do
    let values ← spec.targets members
    return .number (doubleOfInt (countDistinct values))
  | .max => do
    let xs ← spec.numbers members
    return .number (xs.foldl largerNumber (-infinity))
  | .min => do
    let xs ← spec.numbers members
    return .number (xs.foldl smallerNumber infinity)
  | .sum => do
    let xs ← spec.numbers members
    return .number (xs.foldl (· + ·) 0.0)
  | .avg => do
    let xs ← spec.numbers members
    match decimalMean? xs with
    | some mean => return .number mean
    | none => throw (.meanOutOfRange spec)

end AggregateSpec

/-- The row of a group: the group fields, then the aggregates. -/
def Bucket.row (group : List FieldRef) (aggregates : List AggregateSpec) (bucket : Bucket) :
    QueryResult Row := do
  let keys := (group.zip bucket.key).map fun (ref, value) => (ref.key, value)
  let computed ← aggregates.mapM fun spec =>
    (spec.compute bucket.members).map (spec.name, ·)
  return ⟨keys ++ computed⟩

/-- A row for each group of the records. -/
def QueryPlan.aggregate (plan : QueryPlan) (limit : Nat) (records : List Record) :
    QueryResult (List Row) := do
  let buckets ← groupRecords limit plan.group records
  buckets.mapM (Bucket.row plan.group plan.aggregates)

end CampusQuery
