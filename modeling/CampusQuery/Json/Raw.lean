import CampusQuery.Json.Token

/-!
JSON text as written: members in the order of the text with repeats, literals and strings not yet
held to be readable. A reader that skips a part of a document asks no more of it than this form.
-/

namespace CampusQuery

inductive RawJson where
  | null
  | bool (value : Bool)
  | number (literal : NumberLiteral)
  | string (text : Option String)
  | array (items : List RawJson)
  | object (members : List (Option String × RawJson))

instance : Inhabited RawJson := ⟨.null⟩

/-- An array or object that is being read, its parts last one first. -/
inductive RawFrame where
  | array (items : List RawJson)
  | object (members : List (Option String × RawJson)) (name : Option String)

/-- What may come next inside the innermost frame. -/
inductive RawExpects where
  | value
  | itemOrEnd
  | nameOrEnd
  | name
  | colon
  | commaOrEnd
  deriving DecidableEq

/-- A document that is being read; the innermost frame comes first. -/
inductive RawBuilder where
  | reading (frames : List RawFrame) (expects : RawExpects)
  | done (value : RawJson)

namespace RawBuilder

def start : RawBuilder := .reading [] .value

/-- Puts a finished value into its frame. -/
def complete (value : RawJson) : List RawFrame → RawBuilder
  | [] => .done value
  | .array items :: frames => .reading (.array (value :: items) :: frames) .commaOrEnd
  | .object members name :: frames =>
    .reading (.object ((name, value) :: members) name :: frames) .commaOrEnd

/-- Reads a token that starts a value. -/
def beginValue (frames : List RawFrame) : JsonToken → Option RawBuilder
  | .null => some (complete .null frames)
  | .bool b => some (complete (.bool b) frames)
  | .number n => some (complete (.number n) frames)
  | .string s => some (complete (.string s) frames)
  | .openArray => some (.reading (.array [] :: frames) .itemOrEnd)
  | .openObject => some (.reading (.object [] none :: frames) .nameOrEnd)
  | _ => none

def closeArray : List RawFrame → Option RawBuilder
  | .array items :: frames => some (complete (.array items.reverse) frames)
  | _ => none

def closeObject : List RawFrame → Option RawBuilder
  | .object members _ :: frames => some (complete (.object members.reverse) frames)
  | _ => none

/-- Reads the name of a member. -/
def beginMember (name : Option String) : List RawFrame → Option RawBuilder
  | .object members _ :: frames => some (.reading (.object members name :: frames) .colon)
  | _ => none

/-- Reads the comma between two parts. -/
def separate : List RawFrame → Option RawBuilder
  | [] => none
  | .array items :: frames => some (.reading (.array items :: frames) .value)
  | .object members name :: frames => some (.reading (.object members name :: frames) .name)

def feed : RawBuilder → JsonToken → Option RawBuilder
  | .done _, _ => none
  | .reading frames .value, token => beginValue frames token
  | .reading frames .itemOrEnd, .closeArray => closeArray frames
  | .reading frames .itemOrEnd, token => beginValue frames token
  | .reading frames .nameOrEnd, .closeObject => closeObject frames
  | .reading frames .nameOrEnd, .string name => beginMember name frames
  | .reading frames .name, .string name => beginMember name frames
  | .reading frames .colon, .colon => some (.reading frames .value)
  | .reading frames .commaOrEnd, .comma => separate frames
  | .reading frames .commaOrEnd, .closeArray => closeArray frames
  | .reading frames .commaOrEnd, .closeObject => closeObject frames
  | .reading .., _ => none

def run (b : RawBuilder) : List JsonToken → Option RawBuilder
  | [] => some b
  | token :: tokens =>
    match b.feed token with
    | none => none
    | some next => next.run tokens

def result? : RawBuilder → Option RawJson
  | .done value => some value
  | .reading .. => none

end RawBuilder

namespace RawJson

/-- The one value that the tokens make up. -/
def ofTokens? (tokens : List JsonToken) : Option RawJson :=
  (RawBuilder.start.run tokens).bind RawBuilder.result?

/-- Reads a text. -/
def parse? (text : String) : Option RawJson :=
  (JsonToken.ofChars? text.toList).bind ofTokens?

def string? : RawJson → Option String
  | .string text => text
  | _ => none

/-- The number that a reader of unsigned 64-bit integers sees. -/
def unsigned64? : RawJson → Option Nat
  | .number literal => literal.unsigned64?
  | _ => none

/-- The members called one of `names`. None if a name cannot be read or if one of these occurs
twice; members of other names are skipped. -/
def select? (names : List String) : List (Option String × RawJson) → Option (Entries RawJson)
  | [] => some []
  | (none, _) :: _ => none
  | (some name, value) :: rest => do
    let selected ← select? names rest
    if name ∈ names then
      if (Entries.find? name selected).isSome then none else some ((name, value) :: selected)
    else some selected

mutual

/-- How deep arrays and objects are nested. -/
def depth : RawJson → Nat
  | .array items => depthOfItems items + 1
  | .object members => depthOfMembers members + 1
  | _ => 0

def depthOfItems : List RawJson → Nat
  | [] => 0
  | item :: rest => max (depth item) (depthOfItems rest)

def depthOfMembers : List (Option String × RawJson) → Nat
  | [] => 0
  | (_, value) :: rest => max (depth value) (depthOfMembers rest)

end

mutual

/-- The document's value, if every literal and string in it is readable. -/
def value? : RawJson → Option Json
  | .null => some .null
  | .bool b => some (.bool b)
  | .number literal => literal.number?.map .number
  | .string text => text.map .string
  | .array items => (values? items).map .array
  | .object members => (memberValues? members).map .object

def values? : List RawJson → Option (List Json)
  | [] => some []
  | item :: rest => do
    let value ← value? item
    let others ← values? rest
    return value :: others

/-- Members in ascending order; the last of one name wins. -/
def memberValues? : List (Option String × RawJson) → Option (Entries Json)
  | [] => some []
  | (name, value) :: rest => do
    let name ← name
    let value ← value? value
    let others ← memberValues? rest
    return if (Entries.find? name others).isSome then others else others.insert name value

end

end RawJson

namespace Json

/-- Arrays and objects may be nested as deep as this. -/
def maxDepth : Nat := 127

/-- Reads a text. -/
def parse? (text : String) : Option Json := do
  let raw ← RawJson.parse? text
  if raw.depth ≤ maxDepth then raw.value? else none

end Json

end CampusQuery
