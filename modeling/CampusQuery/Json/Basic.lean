import CampusQuery.Dictionary
import CampusQuery.Number.Binary

/-!
JSON documents. An object that was read lists its members in ascending order of their names.
-/

namespace CampusQuery

/-- A number is a 64-bit integer or a double. -/
inductive JsonNumber where
  | integer (value : Int)
  | real (value : Float)

inductive Json where
  | null
  | bool (value : Bool)
  | number (value : JsonNumber)
  | string (text : String)
  | array (items : List Json)
  | object (members : List (String × Json))

instance : Inhabited Json := ⟨.null⟩

/-- The number as a double. -/
def JsonNumber.toDouble : JsonNumber → Float
  | .integer n => doubleOfInt n
  | .real x => x

namespace Json

def isNull : Json → Bool
  | .null => true
  | _ => false

def isNumber : Json → Bool
  | .number _ => true
  | _ => false

def isString : Json → Bool
  | .string _ => true
  | _ => false

def string? : Json → Option String
  | .string text => some text
  | _ => none

def array? : Json → Option (List Json)
  | .array items => some items
  | _ => none

def object? : Json → Option (Entries Json)
  | .object members => some members
  | _ => none

/-- An object of members in any order; the last of one name wins. -/
def ofMembers (members : List (String × Json)) : Json :=
  .object (Dictionary.ofList members).entries

mutual

/-- Every object lists its members in ascending order. -/
def Sorted : Json → Prop
  | .array items => SortedItems items
  | .object members => Entries.Ascending members ∧ SortedMembers members
  | _ => True

def SortedItems : List Json → Prop
  | [] => True
  | item :: rest => Sorted item ∧ SortedItems rest

def SortedMembers : List (String × Json) → Prop
  | [] => True
  | (_, value) :: rest => Sorted value ∧ SortedMembers rest

end

end Json

end CampusQuery
