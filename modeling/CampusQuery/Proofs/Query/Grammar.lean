import CampusQuery.Query.Document
import CampusQuery.Proofs.Data.Record
import CampusQuery.Proofs.Query.Scope

/-!
The grammar of query documents, stated apart from the reader. A scope is the dataset of the first
column; main statement: a key is resolved exactly when it is one of the scope.
-/

namespace CampusQuery

namespace Json

/-- The value at the end of a path of member names. -/
def at? : List String → Json → Option Json
  | [], json => some json
  | name :: path, .object members => (Entries.find? name members).bind (at? path)
  | _ :: _, _ => none

/-- An object with exactly these members, none of which is null. -/
def HasExactly (names : List String) (json : Json) : Prop :=
  ∃ members, json = .object members ∧ (members.map (·.1)).Perm names ∧
    ∀ member ∈ members, member.2 ≠ .null

end Json

/-- Stars stand at the start or at the end only. -/
def IsPattern (text : String) : Prop :=
  ∀ i (h : i < text.toList.length), text.toList[i] = '*' → i = 0 ∨ i + 1 = text.toList.length

/-- The values that a comparison takes for a field of the type. -/
inductive ComparisonOp.Takes : ComparisonOp → FieldType → Json → Prop where
  | lessThan (n : JsonNumber) : Takes .lessThan .numeric (.number n)
  | greaterThan (n : JsonNumber) : Takes .greaterThan .numeric (.number n)
  | equalsNumber (n : JsonNumber) : Takes .equals .numeric (.number n)
  | equalsText (s : String) : Takes .equals .textual (.string s)
  | wildcard (s : String) (h : IsPattern s) : Takes .wildcard .textual (.string s)

/-- A name that APPLY can give. -/
structure IsName (text : String) : Prop where
  filled : text ≠ ""
  plain : '_' ∉ text.toList

/-- The document of an aggregate. -/
def AggregateSpec.document (spec : AggregateSpec) : Json :=
  .object [(spec.name, .object [(spec.op.name, .string spec.target.key)])]

namespace Scope

/-- A key with one underscore: the dataset of the scope before it, a field of its kind after it. -/
structure Refers (scope : Scope) (key : String) (field : Field) : Prop where
  underscore : key.toList.count '_' = 1
  joined : key = qualify scope.datasetId field.name
  kind : field.kind = scope.kind

def IsKey (scope : Scope) (key : String) : Prop :=
  ∃ field, scope.Refers key field

/-- A field of the dataset, with a key that refers to it. -/
structure Owns (scope : Scope) (ref : FieldRef) : Prop where
  datasetId : ref.datasetId = scope.datasetId
  refers : scope.Refers ref.key ref.field

inductive IsFilter (scope : Scope) : Json → Prop where
  | comparison {op : ComparisonOp} {key : String} {field : Field} {value : Json}
    (h : scope.Refers key field) (takes : op.Takes field.fieldType value) :
    IsFilter scope (.object [(op.name, .object [(key, value)])])
  | composite {op : LogicalOp} {items : List Json} (filled : items ≠ [])
    (h : ∀ item ∈ items, IsFilter scope item) :
    IsFilter scope (.object [(op.name, .array items)])
  | negate {body : Json} (h : IsFilter scope body) : IsFilter scope (.object [("NEGATE", body)])

/-- A column without an underscore needs a TRANSFORM. -/
def IsColumn (scope : Scope) (transform : Option Json) (column : String) : Prop :=
  scope.IsKey column ∨ IsName column ∧ transform.isSome

def IsSortKey (scope : Scope) (key : String) : Prop :=
  scope.IsKey key ∨ IsName key

/-- What an ORDER clause asks for. -/
inductive Orders (scope : Scope) : Json → SortSpec → Prop where
  | key {key : String} (h : scope.IsSortKey key) :
    Orders scope (.string key) ⟨.ascending, [key]⟩
  | keys {clause : Json} {spec : SortSpec} (members : clause.HasExactly ["dir", "keys"])
    (direction : clause.at? ["dir"] = some (.string spec.direction.name))
    (keys : clause.at? ["keys"] = some (.array (spec.keys.map .string)))
    (filled : spec.keys ≠ []) (h : ∀ key ∈ spec.keys, scope.IsSortKey key) :
    Orders scope clause spec

/-- An aggregate that APPLY can ask for. -/
structure IsAggregate (scope : Scope) (spec : AggregateSpec) : Prop where
  name : IsName spec.name
  target : scope.Owns spec.target
  numeric : spec.op ≠ .count → spec.target.fieldType = .numeric

/-- What a TRANSFORM clause asks for. -/
structure Transforms (scope : Scope) (clause : Json) (group : List FieldRef)
    (aggregates : List AggregateSpec) : Prop where
  members : clause.HasExactly ["GROUP", "APPLY"]
  keys : clause.at? ["GROUP"] = some (.array (group.map fun ref => .string ref.key))
  filled : group ≠ []
  owned : ∀ ref ∈ group, scope.Owns ref
  entries : clause.at? ["APPLY"] = some (.array (aggregates.map AggregateSpec.document))
  admitted : ∀ spec ∈ aggregates, scope.IsAggregate spec
  distinct : (aggregates.map AggregateSpec.name).Nodup

end Scope

section Members

theorem Json.isNull_eq_false_iff {json : Json} : json.isNull = false ↔ json ≠ .null := by
  cases json <;> simp [Json.isNull]

theorem hasExactly_iff {names : List String} (nodup : names.Nodup) {members : Entries Json} :
    hasExactly names members = true ↔ Json.HasExactly names (.object members) := by
  have found : ∀ name, (members.find? name).any (fun value => !value.isNull) = true ↔
      ∃ value, members.find? name = some value ∧ value ≠ .null := fun name => by
    cases members.find? name <;> simp [Json.isNull_eq_false_iff]
  simp only [hasExactly, Bool.and_eq_true, decide_eq_true_eq, List.all_eq_true, found,
    Json.HasExactly, Json.object.injEq, exists_eq_left']
  constructor
  · rintro ⟨length, filled⟩
    have subset : names ⊆ members.map (·.1) := fun name hname => by
      obtain ⟨value, hvalue, -⟩ := filled name hname
      exact Entries.find?_isSome_iff.1 (by rw [hvalue]; rfl)
    have perm : names.Perm (members.map (·.1)) :=
      (List.subperm_of_subset nodup subset).perm_of_length_le (by simp [length])
    refine ⟨perm.symm, fun member hmember => ?_⟩
    obtain ⟨value, hvalue, hnull⟩ := filled member.1 (perm.mem_iff.2 (List.mem_map_of_mem hmember))
    have same := Entries.find?_of_mem (perm.nodup_iff.1 nodup) hmember
    rw [hvalue, Option.some.injEq] at same
    rwa [← same]
  · rintro ⟨perm, filled⟩
    refine ⟨by rw [← perm.length_eq, List.length_map], fun name hname => ?_⟩
    obtain ⟨value, hvalue⟩ :=
      Option.isSome_iff_exists.1 (Entries.find?_isSome_iff.2 (perm.mem_iff.2 hname))
    exact ⟨value, hvalue, filled _ (Entries.mem_of_find? hvalue)⟩

theorem at?_object (name : String) (path : List String) (members : Entries Json) :
    (Json.object members).at? (name :: path) = (members.find? name).bind (Json.at? path) := rfl

theorem at?_member (name : String) (members : Entries Json) :
    (Json.object members).at? [name] = members.find? name := by
  rw [at?_object]
  cases members.find? name <;> rfl

theorem at?_cons (name : String) (path : List String) (json : Json) :
    json.at? (name :: path) = (json.at? [name]).bind (Json.at? path) := by
  cases json <;> first | rfl | rw [at?_object, at?_member]

/-- A member that must be there is there. -/
theorem Json.HasExactly.exists_at? {names : List String} {json : Json} (h : json.HasExactly names)
    {name : String} (hname : name ∈ names) : ∃ value, json.at? [name] = some value := by
  obtain ⟨members, rfl, perm, -⟩ := h
  rw [at?_member]
  exact Option.isSome_iff_exists.1 (Entries.find?_isSome_iff.2 (perm.mem_iff.2 hname))

end Members

namespace Scope

variable {scope : Scope} {key : String} {ref : FieldRef}

theorem count_qualify (datasetId field : String) : (qualify datasetId field).toList.count '_' =
    datasetId.toList.count '_' + field.toList.count '_' + 1 := by
  simp [qualify]
  omega

theorem resolve_iff : scope.resolve key = .ok ref ↔ ref.key = key ∧ scope.Owns ref := by
  rw [resolve_eq_ok, splitKey?_eq_some_iff]
  constructor
  · rintro ⟨⟨hkey, hid, hname⟩, hdataset, hkind⟩
    have joined : ref.key = key := by rw [FieldRef.key, hdataset, hkey]
    have underscore : key.toList.count '_' = 1 := by
      rw [hkey, count_qualify, List.count_eq_zero.2 hid, List.count_eq_zero.2 hname]
    exact ⟨joined, hdataset, joined ▸ underscore, joined ▸ hkey, hkind⟩
  · rintro ⟨rfl, hdataset, underscore, joined, hkind⟩
    rw [joined, count_qualify] at underscore
    have hid := List.count_eq_zero.1
      (by omega : scope.datasetId.toList.count '_' = 0)
    have hname := List.count_eq_zero.1
      (by omega : ref.field.name.toList.count '_' = 0)
    exact ⟨⟨joined, hid, hname⟩, hdataset, hkind⟩

/-- A key that refers to a field is the key of a field of the dataset. -/
theorem Refers.exists_owned {field : Field} (h : scope.Refers key field) :
    ∃ ref : FieldRef, ref.field = field ∧ ref.key = key ∧ scope.Owns ref := by
  have joined : (⟨scope.datasetId, field⟩ : FieldRef).key = key := h.joined.symm
  exact ⟨⟨scope.datasetId, field⟩, rfl, joined, rfl, joined ▸ h⟩

theorem exists_resolve_iff : (∃ ref, scope.resolve key = .ok ref) ↔ scope.IsKey key := by
  simp only [resolve_iff]
  constructor
  · rintro ⟨ref, rfl, owned⟩
    exact ⟨ref.field, owned.refers⟩
  · rintro ⟨field, refers⟩
    obtain ⟨ref, -, owned⟩ := refers.exists_owned
    exact ⟨ref, owned⟩

theorem IsKey.underscore (h : scope.IsKey key) : '_' ∈ key.toList := by
  obtain ⟨field, refers⟩ := h
  exact List.count_pos_iff.1 (by rw [refers.underscore]; exact Nat.one_pos)

end Scope

end CampusQuery
