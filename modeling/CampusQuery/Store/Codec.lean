import CampusQuery.Data.Dataset
import CampusQuery.Json.Raw

/-!
The file form of datasets: an object of `id`, `kind` and `records`. The reader also takes these
three in an array, skips members of other names and refuses a repeated member.
-/

namespace CampusQuery

namespace Dataset

def toJson (d : Dataset) : Json :=
  .object [("id", .string d.id), ("kind", .string d.kind.name),
    ("records", .array (d.records.map Record.toJson))]

/-- The text that is stored. -/
def text (d : Dataset) : String :=
  d.toJson.compact

end Dataset

/-- A kind by its name, or by an object of the name and null. -/
def SchemaKind.ofRaw? : RawJson → Option SchemaKind
  | .string (some name) => ofName? name
  | .object [(some name, .null)] => ofName? name
  | _ => none

def FieldValue.ofRaw? : RawJson → Option FieldValue
  | .number literal => literal.number?.map fun n => .number n.toDouble
  | .string s => s.map .text
  | _ => none

/-- The entries of a record, of which the last of one name wins. -/
def Record.ofRaw? : RawJson → Option Record
  | .object members => do
    let entries ← members.mapM fun (name, value) => do
      return (← name, ← FieldValue.ofRaw? value)
    return Dictionary.ofList entries
  | _ => none

/-- A file of records alone. -/
def recordsOfRaw? : RawJson → Option (List Record)
  | .array items => items.mapM Record.ofRaw?
  | _ => none

namespace Dataset

/-- The parts of a dataset before they are checked. -/
def partsOfRaw? : RawJson → Option (RawJson × RawJson × RawJson)
  | .array [id, kind, records] => some (id, kind, records)
  | .object members => do
    let found ← RawJson.select? ["id", "kind", "records"] members
    return (← found.find? "id", ← found.find? "kind", ← found.find? "records")
  | _ => none

def ofRaw? (raw : RawJson) : Option Dataset := do
  let (id, kind, records) ← partsOfRaw? raw
  let id ← id.string?
  let kind ← SchemaKind.ofRaw? kind
  let records ← recordsOfRaw? records
  (build id kind records).toOption

/-- Reads the stored text; what is not a dataset as `build` makes it is none. -/
def ofText? (text : String) : Option Dataset :=
  (RawJson.parse? text).bind ofRaw?

/-- Reads the stored bytes. -/
def decode? (bytes : ByteArray) : Option Dataset :=
  (String.fromUTF8? bytes).bind ofText?

def encode (d : Dataset) : ByteArray :=
  d.text.toUTF8

end Dataset

end CampusQuery
