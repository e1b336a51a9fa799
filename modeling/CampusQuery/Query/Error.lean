import CampusQuery.Query.Plan

/-!
What can be wrong with a query, and the message that says so.
-/

namespace CampusQuery

inductive QueryErrorCode where
  | invalidInput
  | resultTooLarge
  | notFound
  deriving DecidableEq

def QueryErrorCode.text : QueryErrorCode → String
  | invalidInput => "INSIGHT_INVALID_INPUT"
  | resultTooLarge => "INSIGHT_RESULT_TOO_LARGE"
  | notFound => "INSIGHT_NOT_FOUND"

/-- The causes of a rejected query. -/
inductive QueryError where
  /-- A part of the document must be an object. -/
  | notObject (what : String)
  | queryKeys
  | optionsKeys
  | orderKeys
  | transformKeys
  | notFilledArray (what : String)
  | notString (what : String) (item : Json)
  | entryCount (what : String) (count : Nat)
  | firstColumn (column : String)
  | unknownDataset (column datasetId : String)
  | keyShape (key : String)
  | foreignDataset (key pinned datasetId : String)
  | unknownField (key : String) (kind : SchemaKind) (name : String)
  | wrongValue (key : String) (value : Json) (field : Field)
  | emptyColumn
  | plainColumn (column : String)
  | filterKey (key : String)
  | noChildren (op : LogicalOp)
  | operatorType (op : ComparisonOp) (type : FieldType) (key : String)
  | pattern (key : String) (error : PatternError)
  | orderDirection (value : Json)
  | emptyOrderKey
  | applyNotArray
  | applyName (name : String)
  | applyOperation (name op : String)
  | applyTarget (name : String) (target : Json)
  | applyType (name : String) (op : AggregateOp) (key : String)
  | applyRepeated (name : String)
  /-- The record lacks the field. -/
  | fieldMissing (ref : FieldRef)
  /-- The record's value has another type than the field. -/
  | fieldMistyped (ref : FieldRef) (value : FieldValue)
  | incomparable (ref : FieldRef) (op : ComparisonOp) (value : FieldValue) (operand : Operand)
  | notSummable (spec : AggregateSpec)
  | meanOutOfRange (spec : AggregateSpec)
  | ungroupedColumn (column : String)
  | unlistedOrderKey (key : String)
  | columnMissing (column : String)
  | resultTooLarge (limit : Nat)
  | datasetNotFound (datasetId : String)
  /-- A reason that comes from outside. -/
  | invalidInput (reason : String)
  | invalidField (key reason : String)

namespace QueryError

def code : QueryError → QueryErrorCode
  | .resultTooLarge _ => .resultTooLarge
  | .datasetNotFound _ => .notFound
  | _ => .invalidInput

/-- The key at which the query goes wrong, if one key does. -/
def key? : QueryError → Option String
  | .firstColumn key => some key
  | .unknownDataset key _ => some key
  | .keyShape key => some key
  | .foreignDataset key _ _ => some key
  | .unknownField key _ _ => some key
  | .wrongValue key _ _ => some key
  | .plainColumn key => some key
  | .filterKey key => some key
  | .noChildren op => some op.name
  | .operatorType _ _ key => some key
  | .pattern key _ => some key
  | .applyName name => some name
  | .applyOperation name _ => some name
  | .applyTarget name _ => some name
  | .applyType name _ _ => some name
  | .applyRepeated name => some name
  | .fieldMissing ref => some ref.key
  | .fieldMistyped ref _ => some ref.key
  | .incomparable ref _ _ _ => some ref.key
  | .notSummable spec => some spec.name
  | .meanOutOfRange spec => some spec.name
  | .ungroupedColumn key => some key
  | .unlistedOrderKey key => some key
  | .columnMissing key => some key
  | .invalidField key _ => some key
  | _ => none

def message : QueryError → String
  | .notObject what => what ++ " must be an object"
  | .queryKeys => "Query must have exactly FILTER and OPTIONS, plus optional TRANSFORM"
  | .optionsKeys => "OPTIONS must have COLUMNS and optional ORDER"
  | .orderKeys => "ORDER must be a key or an object with exactly 'dir' and 'keys'"
  | .transformKeys => "TRANSFORM must have exactly GROUP and APPLY"
  | .notFilledArray what => what ++ " must be a non-empty array"
  | .notString what item => what ++ " must only contain strings, got " ++ item.compact
  | .entryCount what count =>
    "Expected exactly one key in " ++ what ++ ", got " ++ toString count
  | .firstColumn column => "First column '" ++ column ++ "' must be a dataset field"
  | .unknownDataset _ datasetId => "Dataset '" ++ datasetId ++ "' does not exist"
  | .keyShape key => "Expected exactly one '_' in key '" ++ key ++ "'"
  | .foreignDataset _ pinned datasetId =>
    "Query references multiple dataset ids '" ++ pinned ++ "' and '" ++ datasetId ++ "'"
  | .unknownField _ kind name => "Unknown " ++ kind.name ++ " field '" ++ name ++ "'"
  | .wrongValue _ value field =>
    "Invalid value " ++ value.compact ++ " for field '" ++ field.name ++ "': expected " ++
      field.fieldType.name
  | .emptyColumn => "COLUMNS can not contain an empty string"
  | .plainColumn column => "Column '" ++ column ++ "' is not a dataset field"
  | .filterKey key => "Invalid filter key '" ++ key ++ "'"
  | .noChildren op => op.name ++ " must be a non-empty array"
  | .operatorType op type key =>
    op.name ++ " can not be applied to " ++ type.name ++ " field '" ++ key ++ "'"
  | .pattern _ error => error.message
  | .orderDirection value =>
    "Invalid ORDER direction " ++ value.compact ++ ", expected ASCENDING or DESCENDING"
  | .emptyOrderKey => "ORDER key can not be empty"
  | .applyNotArray => "APPLY must be an array"
  | .applyName name => "APPLY key '" ++ name ++ "' must be non-empty and can not contain '_'"
  | .applyOperation _ op => "Invalid APPLY operation '" ++ op ++ "'"
  | .applyTarget _ target => "APPLY target must be a string, got " ++ target.compact
  | .applyType _ op key => "Can not apply " ++ op.name ++ " to non-numeric field '" ++ key ++ "'"
  | .applyRepeated name => "Duplicate APPLY key '" ++ name ++ "'"
  | .fieldMissing ref => "Record has no field '" ++ ref.field.name ++ "'"
  | .fieldMistyped ref value =>
    "Record value " ++ value.display ++ " for '" ++ ref.field.name ++ "' is not a " ++
      ref.fieldType.name
  | .incomparable _ op value operand =>
    op.name ++ " can not compare " ++ value.display ++ " against " ++ operand.describe
  | .notSummable spec => "Can not perform " ++ spec.op.name ++ " on '" ++ spec.target.key ++ "'"
  | .meanOutOfRange spec => "AVG of '" ++ spec.target.key ++ "' is not representable"
  | .ungroupedColumn column =>
    "'" ++ column ++ "' key in COLUMNS must be present in GROUP or APPLY"
  | .unlistedOrderKey key => "ORDER key '" ++ key ++ "' is not included in COLUMNS"
  | .columnMissing column => "Column '" ++ column ++ "' has no value"
  | .resultTooLarge limit => "Query would return more than " ++ toString limit ++ " results"
  | .datasetNotFound datasetId => "Dataset '" ++ datasetId ++ "' not found"
  | .invalidInput reason => reason
  | .invalidField _ reason => reason

/-- The message, with the key at which the query goes wrong. -/
def located (e : QueryError) : String :=
  match e.key? with
  | some key => e.message ++ " (at '" ++ key ++ "')"
  | none => e.message

def display (e : QueryError) : String :=
  e.code.text ++ ": " ++ e.located

end QueryError

/-- What a step of a query returns. -/
abbrev QueryResult := Except QueryError

end CampusQuery
