import CampusQuery.Query.Error

/-!
Resolution of keys. All keys of a query refer to one dataset; a resolver takes that dataset from
the first key that it resolves, and a scope has it from the start.
-/

namespace CampusQuery

/-- A dataset and its kind: what the keys of a query may refer to. -/
structure Scope where
  kind : SchemaKind
  datasetId : String
  deriving DecidableEq

/-- The parts of a key. -/
def splitKey (key : String) : QueryResult (String × String) :=
  match splitKey? key with
  | some parts => .ok parts
  | none => .error (.keyShape key)

namespace Scope

/-- The field that a key refers to. -/
def resolve (scope : Scope) (key : String) : QueryResult FieldRef := do
  let (datasetId, name) ← splitKey key
  if datasetId ≠ scope.datasetId then
    throw (.foreignDataset key scope.datasetId datasetId)
  match scope.kind.field? name with
  | some field => return ⟨scope.datasetId, field⟩
  | none => throw (.unknownField key scope.kind name)

/-- The value must be one that the field is compared with. -/
def checkValue (key : String) (value : Json) (ref : FieldRef) : QueryResult FieldRef :=
  if ref.fieldType.accepts value then .ok ref else .error (.wrongValue key value ref.field)

/-- The field that a key refers to, if it takes `value`. -/
def resolveWithValue (scope : Scope) (key : String) (value : Json) : QueryResult FieldRef := do
  checkValue key value (← scope.resolve key)

end Scope

/-- Resolves keys of one kind, and keeps to the dataset of the first key that it resolves. -/
structure Resolver where
  kind : SchemaKind
  datasetId : Option String
  deriving DecidableEq

namespace Resolver

def new (kind : SchemaKind) : Resolver := ⟨kind, none⟩

def forDataset (kind : SchemaKind) (datasetId : String) : Resolver := ⟨kind, some datasetId⟩

/-- The scope in which the key is to be read. -/
def scopeFor (r : Resolver) (key : String) : QueryResult Scope :=
  match r.datasetId with
  | some datasetId => .ok ⟨r.kind, datasetId⟩
  | none => (splitKey key).map fun parts => ⟨r.kind, parts.1⟩

/-- The answer to a key, and the resolver afterwards. -/
def resolve (r : Resolver) (key : String) : QueryResult FieldRef × Resolver :=
  match (r.scopeFor key).bind (·.resolve key) with
  | .ok ref => (.ok ref, { r with datasetId := some ref.datasetId })
  | .error e => (.error e, r)

/-- A key that is resolved fixes the dataset even if the value is then refused. -/
def resolveWithValue (r : Resolver) (key : String) (value : Json) :
    QueryResult FieldRef × Resolver :=
  let (answer, after) := r.resolve key
  (answer.bind (Scope.checkValue key value), after)

end Resolver

end CampusQuery
