import CampusQuery.Data.Record
import CampusQuery.Text.Blank

/-!
Datasets. A dataset is checked once, when it is made: its id can be part of a key, and each record
has exactly the fields of the kind, with values of their types.
-/

namespace CampusQuery

structure Dataset where
  id : String
  kind : SchemaKind
  records : List Record

/-- An id is not blank and has no underscore, which ends it in a key. -/
def isValidId (id : String) : Bool :=
  !isBlank id && '_' ∉ id.toList

/-- What is wrong with a record. -/
inductive RecordFault where
  | missing (field : Field)
  | mistyped (field : Field)
  | undeclared (name : String)
  /-- A reason that comes from outside. -/
  | other (reason : String)

def RecordFault.message : RecordFault → String
  | .missing field => "missing field '" ++ field.name ++ "'"
  | .mistyped field => "field '" ++ field.name ++ "' must be a " ++ field.fieldType.name
  | .undeclared name => "undeclared field '" ++ name ++ "'"
  | .other reason => reason

inductive DatasetError where
  | invalidId (id : String)
  | malformedRecord (datasetId : String) (index : Nat) (fault : RecordFault)

def DatasetError.message : DatasetError → String
  | .invalidId id => "Invalid dataset id: '" ++ id ++ "'"
  | .malformedRecord datasetId index fault =>
    "Malformed record " ++ toString index ++ " in dataset '" ++ datasetId ++ "': " ++ fault.message

def checkField (record : Record) (field : Field) : Except RecordFault Unit :=
  match record.find? field.name with
  | none => .error (.missing field)
  | some value => if field.fieldType.holds value then .ok () else .error (.mistyped field)

/-- Declared fields are looked at first. A further field shows in the number of fields. -/
def checkRecord (kind : SchemaKind) (record : Record) : Except RecordFault Unit := do
  kind.fields.forM (checkField record)
  if record.size ≠ kind.fields.length then
    match record.names.find? fun name => (kind.field? name).isNone with
    | some name => throw (.undeclared name)
    | none => return

namespace Dataset

/-- Checks records, of which the first has the given index. -/
def checkRecords (id : String) (kind : SchemaKind) (index : Nat) :
    List Record → Except DatasetError Unit
  | [] => .ok ()
  | record :: records =>
    match checkRecord kind record with
    | .error fault => .error (.malformedRecord id index fault)
    | .ok () => checkRecords id kind (index + 1) records

/-- Makes a dataset of checked parts. -/
def build (id : String) (kind : SchemaKind) (records : List Record) : Except DatasetError Dataset :=
  if isValidId id then (checkRecords id kind 0 records).map fun _ => ⟨id, kind, records⟩
  else .error (.invalidId id)

end Dataset

/-- What a listing says of a dataset. -/
structure DatasetSummary where
  id : String
  kind : SchemaKind
  rowCount : Nat
  deriving DecidableEq

def Dataset.summary (d : Dataset) : DatasetSummary :=
  ⟨d.id, d.kind, d.records.length⟩

def DatasetSummary.toJson (s : DatasetSummary) : Json :=
  .object [("id", .string s.id), ("kind", .string s.kind.name),
    ("num_rows", .number (.integer s.rowCount))]

/-- The datasets that a query sees. -/
abbrev Datasets := String → Option Dataset

end CampusQuery
