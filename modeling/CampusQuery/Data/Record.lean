import CampusQuery.Data.Value

/-!
Records and rows. A record maps field names to values; a row lists its columns in the order in
which they were asked for, and a column may occur more than once.
-/

namespace CampusQuery

abbrev Record := Dictionary FieldValue

def Record.toJson (record : Record) : Json :=
  .object (record.entries.map fun entry => (entry.1, entry.2.toJson))

/-- The record of an object of numbers and strings. -/
def Record.ofJson? (json : Json) : Option Record := do
  let members ← json.object?
  let entries ← members.mapM fun member => (member.2.fieldValue?).map (member.1, ·)
  return Dictionary.ofList entries

structure Row where
  cells : List (String × FieldValue)

namespace Row

/-- The value of the first column of that name. -/
def get? (column : String) (row : Row) : Option FieldValue :=
  Entries.find? column row.cells

def columns (row : Row) : List String :=
  row.cells.map (·.1)

def values (row : Row) : List FieldValue :=
  row.cells.map (·.2)

def size (row : Row) : Nat :=
  row.cells.length

/-- An object with the columns in order, repeats included. -/
def toJson (row : Row) : Json :=
  .object (row.cells.map fun cell => (cell.1, cell.2.toJson))

def text (row : Row) : String :=
  row.toJson.compact

end Row

end CampusQuery
