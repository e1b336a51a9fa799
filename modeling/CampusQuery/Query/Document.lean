import CampusQuery.Query.Scope

/-!
Query documents, read into plans. The first violation is the answer, in this order: the sets of
keys, COLUMNS, FILTER, ORDER, TRANSFORM.
-/

namespace CampusQuery

/-- The object has these members and no other, none of them null. -/
def hasExactly (names : List String) (members : Entries Json) : Bool :=
  members.length = names.length &&
    names.all fun name => (members.find? name).any fun value => !value.isNull

def asObject (what : String) (json : Json) : QueryResult (Entries Json) :=
  match json.object? with
  | some members => .ok members
  | none => .error (.notObject what)

def asString (what : String) (json : Json) : QueryResult String :=
  match json.string? with
  | some text => .ok text
  | none => .error (.notString what json)

/-- An array of at least one string. -/
def asStrings (what : String) (json : Json) : QueryResult (List String) :=
  match json with
  | .array (item :: items) => (item :: items).mapM (asString what)
  | _ => .error (.notFilledArray what)

/-- The one member of an object. -/
def asEntry (what : String) (members : Entries Json) : QueryResult (String × Json) :=
  match members with
  | [entry] => .ok entry
  | _ => .error (.entryCount what members.length)

/-- The parts of a query document. -/
structure QueryClauses where
  filter : Json
  columns : Json
  order : Option Json
  transform : Option Json

namespace QueryClauses

/-- Whether TRANSFORM is there; no other member may be. -/
def checkKeys (query : Entries Json) : QueryResult Bool :=
  if hasExactly ["FILTER", "OPTIONS"] query then .ok false
  else if hasExactly ["FILTER", "OPTIONS", "TRANSFORM"] query then .ok true
  else .error .queryKeys

def checkOptions (options : Entries Json) : QueryResult Unit :=
  if hasExactly ["COLUMNS"] options || hasExactly ["COLUMNS", "ORDER"] options then .ok ()
  else .error .optionsKeys

def ofJson (json : Json) : QueryResult QueryClauses := do
  let query ← asObject "Query" json
  let _ ← checkKeys query
  let options ← asObject "OPTIONS" ((query.find? "OPTIONS").getD .null)
  checkOptions options
  return {
    filter := (query.find? "FILTER").getD .null
    columns := (options.find? "COLUMNS").getD .null
    order := options.find? "ORDER"
    transform := query.find? "TRANSFORM" }

end QueryClauses

namespace Scope

/-- The scope of a query is the dataset of its first column. -/
def ofFirstColumn (kinds : String → Option SchemaKind) (column : String) : QueryResult Scope :=
  match splitKey? column with
  | none => .error (.firstColumn column)
  | some (datasetId, _) =>
    match kinds datasetId with
    | none => .error (.unknownDataset column datasetId)
    | some kind =>
      let scope : Scope := ⟨kind, datasetId⟩
      (scope.resolve column).map fun _ => scope

/-- A column is a field of the dataset or, in a query with TRANSFORM, a name of APPLY. -/
def checkColumn (scope : Scope) (hasTransform : Bool) (column : String) : QueryResult Unit :=
  if column = "" then .error .emptyColumn
  else if '_' ∈ column.toList then (scope.resolve column).map fun _ => ()
  else if hasTransform then .ok ()
  else .error (.plainColumn column)

/-- The operand of a comparison on a field. -/
def operand (op : ComparisonOp) (type : FieldType) (key : String) (value : Json) :
    QueryResult Operand :=
  match op, type, value with
  | .lessThan, .numeric, .number n => .ok (.number n.toDouble)
  | .greaterThan, .numeric, .number n => .ok (.number n.toDouble)
  | .equals, .numeric, .number n => .ok (.number n.toDouble)
  | .equals, .textual, .string s => .ok (.text s)
  | .wildcard, .textual, .string s =>
    match Wildcard.compile s with
    | .ok pattern => .ok (.pattern pattern)
    | .error e => .error (.pattern key e)
  | _, _, _ => .error (.operatorType op type key)

/-- Reads the object after a comparison operator. -/
def comparison (scope : Scope) (op : ComparisonOp) (negated : Bool) (body : Json) :
    QueryResult Comparison := do
  let (key, value) ← asEntry op.name (← asObject op.name body)
  let field ← scope.resolveWithValue key value
  let operand ← operand op field.fieldType key value
  return ⟨field, op, operand, negated⟩

end Scope

/-- The node itself if it is a comparison. -/
def FilterNode.comparison? : FilterNode → Option Comparison
  | .comparison c => some c
  | .composite _ => none

def FilterNode.composite? : FilterNode → Option Composite
  | .comparison _ => none
  | .composite c => some c

/-- Sorts children into comparisons and composites. -/
def Composite.ofChildren (op : LogicalOp) (children : List FilterNode) (negated : Bool) :
    Composite :=
  .node op (children.filterMap FilterNode.comparison?) (children.filterMap FilterNode.composite?)
    negated

namespace Scope

mutual

/-- Reads a filter; `negated` counts the negations around it. -/
def filter (scope : Scope) (negated : Bool) : Json → QueryResult FilterNode
  | .object [(key, body)] =>
    match ComparisonOp.ofName? key with
    | some op => (scope.comparison op negated body).map .comparison
    | none =>
      match LogicalOp.ofName? key with
      | some op =>
        match body with
        | .array (item :: items) => do
          let first ← scope.filter false item
          let others ← scope.filters items
          return .composite (.ofChildren op (first :: others) negated)
        | _ => .error (.noChildren op)
      | none => if key = "NEGATE" then scope.filter (!negated) body else .error (.filterKey key)
  | .object members => .error (.entryCount "filter" members.length)
  | _ => .error (.notObject "Filter")

/-- Reads the children of a composite. -/
def filters (scope : Scope) : List Json → QueryResult (List FilterNode)
  | [] => .ok []
  | item :: items => do
    let first ← scope.filter false item
    let others ← scope.filters items
    return first :: others

end

/-- An empty object is no filter. -/
def filterClause (scope : Scope) (clause : Json) : QueryResult (Option FilterNode) := do
  let members ← asObject "FILTER" clause
  if members.isEmpty then return none
  else return some (← scope.filter false clause)

/-- A sort key is a field of the dataset or a name of APPLY. -/
def checkOrderKey (scope : Scope) (key : String) : QueryResult Unit :=
  if key = "" then .error .emptyOrderKey
  else if '_' ∈ key.toList then (scope.resolve key).map fun _ => ()
  else .ok ()

def direction (value : Json) : QueryResult SortDirection :=
  match value.string?.bind SortDirection.ofName? with
  | some direction => .ok direction
  | none => .error (.orderDirection value)

/-- A key alone sorts ascending. -/
def orderClause (scope : Scope) (clause : Json) : QueryResult SortSpec :=
  match clause with
  | .string key => do
    scope.checkOrderKey key
    return ⟨.ascending, [key]⟩
  | _ => do
    let members ← asObject "ORDER" clause
    if !hasExactly ["dir", "keys"] members then throw .orderKeys
    let direction ← direction ((members.find? "dir").getD .null)
    let keys ← asStrings "ORDER keys" ((members.find? "keys").getD .null)
    keys.forM scope.checkOrderKey
    return ⟨direction, keys⟩

/-- Reads an entry `{<name>: {<operation>: <key>}}`. -/
def applyEntry (scope : Scope) (entry : Json) : QueryResult AggregateSpec := do
  let (name, rule) ← asEntry "APPLY entry" (← asObject "APPLY entry" entry)
  if name = "" ∨ '_' ∈ name.toList then throw (.applyName name)
  let (opName, target) ← asEntry "APPLY rule" (← asObject "APPLY rule" rule)
  match AggregateOp.ofName? opName with
  | none => throw (.applyOperation name opName)
  | some op =>
    match target with
    | .string key =>
      let ref ← scope.resolve key
      if op.requiresNumeric ∧ !ref.field.isNumeric then throw (.applyType name op key)
      return ⟨name, op, ref⟩
    | _ => throw (.applyTarget name target)

/-- Reads the entries of APPLY; `taken` holds the names so far. -/
def applyEntries (scope : Scope) (taken : List String) :
    List Json → QueryResult (List AggregateSpec)
  | [] => .ok []
  | entry :: entries => do
    let spec ← scope.applyEntry entry
    if spec.name ∈ taken then throw (.applyRepeated spec.name)
    let others ← scope.applyEntries (spec.name :: taken) entries
    return spec :: others

def transformClause (scope : Scope) (clause : Json) :
    QueryResult (List FieldRef × List AggregateSpec) := do
  let members ← asObject "TRANSFORM" clause
  if !hasExactly ["GROUP", "APPLY"] members then throw .transformKeys
  let keys ← asStrings "GROUP" ((members.find? "GROUP").getD .null)
  let group ← keys.mapM scope.resolve
  match (members.find? "APPLY").getD .null with
  | .array entries => return (group, ← scope.applyEntries [] entries)
  | _ => throw .applyNotArray

end Scope

namespace QueryPlan

/-- Reads a query document; `kinds` tells the kinds of the datasets that exist. -/
def ofJson (kinds : String → Option SchemaKind) (json : Json) : QueryResult QueryPlan := do
  let clauses ← QueryClauses.ofJson json
  let columns ← asStrings "COLUMNS" clauses.columns
  let scope ← Scope.ofFirstColumn kinds (columns.headD "")
  columns.forM (scope.checkColumn clauses.transform.isSome)
  let filter ← scope.filterClause clauses.filter
  let sort ← match clauses.order with
    | some order => scope.orderClause order
    | none => pure {}
  let (group, aggregates) ← match clauses.transform with
    | some transform => scope.transformClause transform
    | none => pure ([], [])
  return { datasetId := scope.datasetId, filter, columns, sort, group, aggregates }

end QueryPlan

end CampusQuery
