import CampusQuery.Query.Scope
import CampusQuery.Proofs.Except

/-!
Resolution of keys in a scope. Main statement: a key is resolved to a field exactly when it is the
qualified name of a field of the scope's kind.
-/

namespace CampusQuery

theorem splitKey_eq_ok {key : String} {parts : String × String} :
    splitKey key = .ok parts ↔ splitKey? key = some parts := by
  unfold splitKey
  cases splitKey? key <;> simp

namespace Scope

theorem resolve_eq_ok {scope : Scope} {key : String} {ref : FieldRef} :
    scope.resolve key = .ok ref ↔ splitKey? key = some (scope.datasetId, ref.field.name) ∧
      ref.datasetId = scope.datasetId ∧ ref.field.kind = scope.kind := by
  obtain ⟨datasetId, field⟩ := ref
  unfold resolve
  rw [bind_eq_ok]
  simp only [splitKey_eq_ok, Prod.exists]
  constructor
  · rintro ⟨prefixId, name, hsplit, h⟩
    split at h
    · contradiction
    next hid =>
      rw [not_not] at hid
      subst hid
      split at h
      · next found hfound =>
        cases h
        obtain ⟨hkind, rfl⟩ := SchemaKind.eq_of_field?_eq_some hfound
        exact ⟨hsplit, rfl, hkind⟩
      · contradiction
  · rintro ⟨hsplit, hid, hkind⟩
    subst hid
    have hfound : scope.kind.field? field.name = some field :=
      SchemaKind.field?_eq_some_iff.2 ⟨hkind, rfl⟩
    exact ⟨_, _, hsplit, by simp [hfound]⟩

/-- The key of a resolved field is the key that was resolved. -/
theorem key_of_resolve {scope : Scope} {key : String} {ref : FieldRef}
    (h : scope.resolve key = .ok ref) : ref.key = key := by
  obtain ⟨hsplit, hid, -⟩ := resolve_eq_ok.1 h
  rw [FieldRef.key, hid, (splitKey?_eq_some_iff.1 hsplit).1]

theorem resolveWithValue_eq_ok {scope : Scope} {key : String} {value : Json} {ref : FieldRef} :
    scope.resolveWithValue key value = .ok ref ↔
      scope.resolve key = .ok ref ∧ ref.fieldType.accepts value = true := by
  unfold resolveWithValue checkValue
  rw [bind_eq_ok]
  constructor
  · rintro ⟨found, hfound, h⟩
    split at h
    · next haccepts =>
      cases h
      exact ⟨hfound, haccepts⟩
    · contradiction
  · rintro ⟨hfound, haccepts⟩
    exact ⟨ref, hfound, if_pos haccepts⟩

end Scope

end CampusQuery
