import CampusQuery.Json.Printer
import CampusQuery.Schema.Field
import CampusQuery.Text.Quoted

/-!
Values of fields: numbers and texts. Numbers come before texts in the order of values.
-/

namespace CampusQuery

-- Powers are those of natural numbers, not those of a monoid.
attribute [local instance (high)] instPowNat

inductive FieldValue where
  | number (value : Float)
  | text (value : String)

/-- Numbers compare in size; one that is not a number ties with every number. -/
def compareNumbers (a b : Float) : Ordering :=
  if a < b then .lt
  else if b < a then .gt
  else .eq

namespace FieldValue

instance : Inhabited FieldValue := ⟨.text ""⟩

/-- Equal as numbers or equal as texts, so 0.0 equals -0.0. -/
def beq : FieldValue → FieldValue → Bool
  | .number a, .number b => a == b
  | .text a, .text b => a == b
  | _, _ => false

instance : BEq FieldValue := ⟨beq⟩

def fieldType : FieldValue → FieldType
  | .number _ => .numeric
  | .text _ => .textual

def number? : FieldValue → Option Float
  | .number x => some x
  | .text _ => none

def text? : FieldValue → Option String
  | .number _ => none
  | .text s => some s

/-- The order of values that sorts rows. -/
def compare : FieldValue → FieldValue → Ordering
  | .number a, .number b => compareNumbers a b
  | .text a, .text b => Ord.compare a b
  | .number _, .text _ => .lt
  | .text _, .number _ => .gt

/-- The bits of a double, the same for both zeros. -/
def numberBits (x : Float) : Nat :=
  if x == 0.0 then 0 else x.toBits.toNat

/-- A code of the value that says where it ends, so that codes can follow one another. -/
def code : FieldValue → String
  | .number x => "n" ++ toString (numberBits x) ++ ";"
  | .text s => "s" ++ toString s.utf8ByteSize ++ ":" ++ s ++ ";"

/-- A number without a fraction that doubles count exactly is a JSON integer. -/
def wholeJson? (x : Float) : Option Int :=
  match wholeValue? x with
  | some n => if n.natAbs < 2 ^ (53 : Nat) then some n else none
  | none => none

def toJson : FieldValue → Json
  | .number x =>
    match wholeJson? x with
    | some n => .number (.integer n)
    | none => .number (.real x)
  | .text s => .string s

/-- The value in a message. -/
def display : FieldValue → String
  | .number x => NumberLayout.plain.render x
  | .text s => quoted s

end FieldValue

/-- A JSON number or string is a value. -/
def Json.fieldValue? : Json → Option FieldValue
  | .number n => some (.number n.toDouble)
  | .string s => some (.text s)
  | _ => none

/-- The JSON values that a field of this type is compared with. -/
def FieldType.accepts : FieldType → Json → Bool
  | .numeric, value => value.isNumber
  | .textual, value => value.isString

/-- The values that a field of this type holds. -/
def FieldType.holds (type : FieldType) (value : FieldValue) : Bool :=
  value.fieldType = type

end CampusQuery
