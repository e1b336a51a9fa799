import CampusQuery.Proofs.Data.Record

/-!
Datasets that were checked when they were made. Main statement: the records of such a dataset are
well-formed, and no other dataset passes the check.
-/

namespace CampusQuery

namespace Dataset

/-- The dataset is one that `build` gives. -/
def Built (d : Dataset) : Prop :=
  build d.id d.kind d.records = .ok d

theorem checkRecords_eq_ok {id : String} {kind : SchemaKind} {index : Nat} {records : List Record} :
    checkRecords id kind index records = .ok () ↔ ∀ record ∈ records, record.WellFormed kind := by
  induction records generalizing index with
  | nil => simp [checkRecords]
  | cons record records ih =>
    rw [checkRecords, List.forall_mem_cons, ← checkRecord_eq_ok]
    cases h : checkRecord kind record with
    | error fault => simp
    | ok checked => simp [ih]

theorem build_eq_ok {id : String} {kind : SchemaKind} {records : List Record} {d : Dataset} :
    build id kind records = .ok d ↔
      isValidId id = true ∧ (∀ record ∈ records, record.WellFormed kind) ∧
        d = ⟨id, kind, records⟩ := by
  unfold build
  split
  · next valid =>
    rw [map_eq_ok]
    constructor
    · rintro ⟨_, checked, rfl⟩
      exact ⟨valid, checkRecords_eq_ok.1 checked, rfl⟩
    · rintro ⟨-, wellFormed, rfl⟩
      exact ⟨(), checkRecords_eq_ok.2 wellFormed, rfl⟩
  · next invalid => simp [invalid]

theorem built_iff {d : Dataset} :
    d.Built ↔ isValidId d.id = true ∧ ∀ record ∈ d.records, record.WellFormed d.kind := by
  rw [Built, build_eq_ok]
  simp

end Dataset

/-- Sections of two departments; two of them differ in the sign of a zero alone. -/
def sampleSections : List Record :=
  [sampleSection 91.5 0 "cpsc", sampleSection 60 0 "math", sampleSection 70.25 (-0.0) "cpsc"]

def sampleDatasets : Datasets := fun id =>
  if id = "cs" then some ⟨"cs", .courses, sampleSections⟩ else none

theorem sampleSections_wellFormed : ∀ record ∈ sampleSections, record.WellFormed .courses := by
  simp only [sampleSections, List.forall_mem_cons]
  exact ⟨sampleSection_wellFormed _ _ _, sampleSection_wellFormed _ _ _,
    sampleSection_wellFormed _ _ _, by simp⟩

theorem sampleDatasets_built :
    ∀ id dataset, sampleDatasets id = some dataset → dataset.Built := by
  intro id dataset h
  unfold sampleDatasets at h
  split at h
  · cases h
    exact Dataset.built_iff.2 ⟨by decide, sampleSections_wellFormed⟩
  · contradiction

end CampusQuery
