/-!
The two kinds of dataset and their fields. A field holds numbers or text, never both and never
nothing.
-/

namespace CampusQuery

inductive FieldType where
  | numeric
  | textual
  deriving DecidableEq

/-- The type's name in messages. -/
def FieldType.name : FieldType → String
  | .numeric => "number"
  | .textual => "string"

/-- Fields of a course section. -/
inductive CourseField where
  | avg
  | pass
  | fail
  | audit
  | year
  | dept
  | id
  | instructor
  | title
  | uuid
  deriving DecidableEq

/-- Fields of a room. -/
inductive RoomField where
  | fullname
  | shortname
  | number
  | name
  | address
  | lat
  | lon
  | seats
  | type
  | furniture
  | href
  deriving DecidableEq

inductive Field where
  | course (field : CourseField)
  | room (field : RoomField)
  deriving DecidableEq

inductive SchemaKind where
  | courses
  | rooms
  deriving DecidableEq

namespace CourseField

/-- In order of declaration. -/
def all : List CourseField :=
  [avg, pass, fail, audit, year, dept, id, instructor, title, uuid]

def label : CourseField → String
  | avg => "avg"
  | pass => "pass"
  | fail => "fail"
  | audit => "audit"
  | year => "year"
  | dept => "dept"
  | id => "id"
  | instructor => "instructor"
  | title => "title"
  | uuid => "uuid"

def fieldType : CourseField → FieldType
  | avg | pass | fail | audit | year => .numeric
  | dept | id | instructor | title | uuid => .textual

@[simp] theorem mem_all (field : CourseField) : field ∈ all := by
  cases field <;> decide

end CourseField

namespace RoomField

/-- In order of declaration. -/
def all : List RoomField :=
  [fullname, shortname, number, name, address, lat, lon, seats, type, furniture, href]

def label : RoomField → String
  | fullname => "fullname"
  | shortname => "shortname"
  | number => "number"
  | name => "name"
  | address => "address"
  | lat => "lat"
  | lon => "lon"
  | seats => "seats"
  | type => "type"
  | furniture => "furniture"
  | href => "href"

def fieldType : RoomField → FieldType
  | lat | lon | seats => .numeric
  | _ => .textual

@[simp] theorem mem_all (field : RoomField) : field ∈ all := by
  cases field <;> decide

end RoomField

namespace Field

/-- The field's name in a record. -/
def name : Field → String
  | course field => field.label
  | room field => field.label

def fieldType : Field → FieldType
  | course field => field.fieldType
  | room field => field.fieldType

def isNumeric (field : Field) : Bool :=
  field.fieldType = .numeric

/-- The kind that declares the field. -/
def kind : Field → SchemaKind
  | course _ => .courses
  | room _ => .rooms

end Field

namespace SchemaKind

def name : SchemaKind → String
  | courses => "courses"
  | rooms => "rooms"

def ofName? (name : String) : Option SchemaKind :=
  if name = courses.name then some courses
  else if name = rooms.name then some rooms
  else none

/-- The declared fields, in order of declaration. -/
def fields : SchemaKind → List Field
  | courses => CourseField.all.map .course
  | rooms => RoomField.all.map .room

/-- The declared field of a name. -/
def field? (kind : SchemaKind) (name : String) : Option Field :=
  kind.fields.find? (·.name = name)

@[simp] theorem ofName?_name (kind : SchemaKind) : ofName? kind.name = some kind := by
  cases kind <;> decide

theorem mem_fields {kind : SchemaKind} {field : Field} :
    field ∈ kind.fields ↔ field.kind = kind := by
  cases kind <;> cases field <;> simp [fields, Field.kind]

theorem field?_name (field : Field) : field.kind.field? field.name = some field := by
  cases field with
  | course field => cases field <;> decide
  | room field => cases field <;> decide

theorem eq_of_field?_eq_some {kind : SchemaKind} {name : String} {field : Field}
    (h : kind.field? name = some field) : field.kind = kind ∧ field.name = name := by
  have found := List.find?_some h
  exact ⟨mem_fields.1 (List.mem_of_find?_eq_some h), by simpa using found⟩

theorem field?_eq_some_iff {kind : SchemaKind} {name : String} {field : Field} :
    kind.field? name = some field ↔ field.kind = kind ∧ field.name = name :=
  ⟨eq_of_field?_eq_some, fun ⟨hkind, hname⟩ => hkind ▸ hname ▸ field?_name field⟩

end SchemaKind

end CampusQuery
