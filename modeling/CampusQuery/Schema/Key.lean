import CampusQuery.Schema.Field

/-!
Qualified keys `<dataset>_<field>`. Main statements: a key splits in exactly the way in which it
was joined.
-/

namespace CampusQuery

/-- Joins a dataset id and a field name. -/
def qualify (datasetId field : String) : String :=
  datasetId ++ "_" ++ field

/-- What comes before and after the first underscore. -/
def splitUnderscore? : List Char → Option (List Char × List Char)
  | [] => none
  | c :: cs =>
    if c = '_' then some ([], cs)
    else (splitUnderscore? cs).map fun parts => (c :: parts.1, parts.2)

/-- The two parts of a key with exactly one underscore. -/
def splitKey? (key : String) : Option (String × String) :=
  match splitUnderscore? key.toList with
  | none => none
  | some (datasetId, field) =>
    if '_' ∈ field then none else some (String.ofList datasetId, String.ofList field)

theorem splitUnderscore?_eq_some_iff {cs before after : List Char} :
    splitUnderscore? cs = some (before, after) ↔ cs = before ++ '_' :: after ∧ '_' ∉ before := by
  induction cs generalizing before with
  | nil => simp [splitUnderscore?]
  | cons c cs ih =>
    cases before with
    | nil => by_cases h : c = '_' <;> simp [splitUnderscore?, h]
    | cons d before =>
      by_cases h : c = '_'
      · simp only [splitUnderscore?, h]
        grind
      · simp only [splitUnderscore?, h, if_false, Option.map_eq_some_iff, Prod.exists]
        grind

theorem splitKey?_eq_some_iff {key datasetId field : String} :
    splitKey? key = some (datasetId, field) ↔
      key = qualify datasetId field ∧ '_' ∉ datasetId.toList ∧ '_' ∉ field.toList := by
  have joined : key = qualify datasetId field ↔
      key.toList = datasetId.toList ++ '_' :: field.toList := by
    rw [← String.toList_inj]
    simp [qualify]
  rw [joined]
  constructor
  · intro h
    simp only [splitKey?] at h
    split at h
    · contradiction
    · next before after hsplit =>
      split at h
      · contradiction
      · next hafter =>
        simp only [Option.some.injEq, Prod.mk.injEq] at h
        obtain ⟨rfl, rfl⟩ := h
        simpa [hafter] using splitUnderscore?_eq_some_iff.1 hsplit
  · rintro ⟨hkey, hid, hfield⟩
    simp [splitKey?, splitUnderscore?_eq_some_iff.2 ⟨hkey, hid⟩, hfield]

/-- A field of a dataset. -/
structure FieldRef where
  datasetId : String
  field : Field
  deriving DecidableEq

namespace FieldRef

/-- The key that refers to the field. -/
def key (ref : FieldRef) : String :=
  qualify ref.datasetId ref.field.name

def fieldType (ref : FieldRef) : FieldType :=
  ref.field.fieldType

end FieldRef

end CampusQuery
