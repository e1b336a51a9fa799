import CampusQuery.Proofs.Data.Dataset

/-!
What datasets are made of. Main statement: a dataset is made exactly if its id can stand in a key and
all its records conform to the kind, and otherwise the first record that does not is named together
with something that is wrong with it.
-/

namespace CampusQuery

namespace Record

/-- The record names the declared fields and no others, and has values of their types. -/
structure Conforms (kind : SchemaKind) (record : Record) : Prop where
  names : ∀ name, name ∈ record.names ↔ name ∈ kind.fields.map Field.name
  types : ∀ field ∈ kind.fields, ∀ value, record.find? field.name = some value →
    value.fieldType = field.fieldType

/-- A declared field is missing or has a value of the other type, or a field is not declared. -/
inductive Faulty (kind : SchemaKind) (record : Record) : RecordFault → Prop
  | missing {field} (declared : field ∈ kind.fields) (absent : field.name ∉ record.names) :
    Faulty kind record (.missing field)
  | mistyped {field value} (declared : field ∈ kind.fields)
    (found : record.find? field.name = some value) (type : value.fieldType ≠ field.fieldType) :
    Faulty kind record (.mistyped field)
  | undeclared {name} (there : name ∈ record.names)
    (undeclared : name ∉ kind.fields.map Field.name) : Faulty kind record (.undeclared name)

/-- The record has all declared fields, with values of their types, and others as well. -/
structure Exceeds (kind : SchemaKind) (record : Record) : Prop where
  covers : ∀ field ∈ kind.fields, ∃ value, record.find? field.name = some value ∧
    value.fieldType = field.fieldType
  further : ∃ name ∈ record.names, name ∉ kind.fields.map Field.name

variable {kind : SchemaKind} {record : Record} {fault : RecordFault}

theorem wellFormed_iff_conforms : record.WellFormed kind ↔ record.Conforms kind := by
  constructor
  · intro h
    refine ⟨fun name => ⟨fun hname => ?_, fun hname => ?_⟩, fun field hfield value hvalue => ?_⟩
    · exact SchemaKind.mem_names.2 (h.declared name (mem_names.1 hname))
    · obtain ⟨field, hfield, rfl⟩ := List.mem_map.1 hname
      obtain ⟨value, hvalue, -⟩ := h.holds field hfield
      exact mem_names.2 (by simp [hvalue])
    · obtain ⟨other, hother, holds⟩ := h.holds field hfield
      obtain rfl := Option.some.inj (hvalue.symm.trans hother)
      simpa [FieldType.holds] using holds
  · intro h
    refine ⟨fun field hfield => ?_, fun name hname => ?_⟩
    · have there := mem_names.1 ((h.names field.name).2 (List.mem_map_of_mem hfield))
      obtain ⟨value, hvalue⟩ := Option.isSome_iff_exists.1 there
      exact ⟨value, hvalue, by simp [FieldType.holds, h.types field hfield value hvalue]⟩
    · exact SchemaKind.mem_names.1 ((h.names name).1 (mem_names.2 hname))

/-- Nothing is wrong with such a record but a name that is not declared. -/
theorem Exceeds.exists_undeclared (h : record.Exceeds kind) (faulty : record.Faulty kind fault) :
    ∃ name ∈ record.names, name ∉ kind.fields.map Field.name ∧ fault = .undeclared name := by
  cases faulty with
  | missing declared absent =>
    obtain ⟨value, hvalue, -⟩ := h.covers _ declared
    exact absurd (mem_names.2 (by simp [hvalue])) absent
  | mistyped declared found type =>
    obtain ⟨value, hvalue, same⟩ := h.covers _ declared
    obtain rfl := Option.some.inj (hvalue.symm.trans found)
    exact absurd same type
  | undeclared there undeclared => exact ⟨_, there, undeclared, rfl⟩

theorem Exceeds.not_conforms (h : record.Exceeds kind) : ¬record.Conforms kind := by
  obtain ⟨name, there, undeclared⟩ := h.further
  exact fun conforms => undeclared ((conforms.names name).1 there)

/-- A further field is too much for a record that conforms. -/
theorem Conforms.exceeds_insert {name : String} (h : record.Conforms kind)
    (undeclared : name ∉ kind.fields.map Field.name) (value : FieldValue) :
    Exceeds kind (record.insert name value) where
  covers field hfield := by
    have declared : field.name ∈ kind.fields.map Field.name := List.mem_map_of_mem hfield
    obtain ⟨found, hfound⟩ := Option.isSome_iff_exists.1 (mem_names.1 ((h.names _).2 declared))
    have other : name ≠ field.name := fun same => undeclared (same ▸ declared)
    exact ⟨found, by rw [Dictionary.find?_insert, if_neg other, hfound],
      h.types field hfield found hfound⟩
  further := by
    refine ⟨name, ?_, undeclared⟩
    rw [mem_names, Dictionary.find?_insert, if_pos rfl]
    rfl

theorem faulty_of_checkField {field : Field} (declared : field ∈ kind.fields)
    (h : checkField record field = .error fault) : record.Faulty kind fault := by
  unfold checkField at h
  split at h
  · next hnone =>
    cases h
    exact .missing declared (by simp [mem_names, hnone])
  · next value hvalue =>
    split at h
    · contradiction
    · next holds =>
      cases h
      exact .mistyped declared hvalue (by simpa [FieldType.holds] using holds)

theorem faulty_of_checkRecord (h : checkRecord kind record = .error fault) :
    record.Faulty kind fault := by
  unfold checkRecord at h
  cases declared : kind.fields.forM (checkField record) with
  | error _ =>
    rw [declared] at h
    cases h
    obtain ⟨field, hfield, hfail⟩ := exists_of_forM_eq_error declared
    exact faulty_of_checkField hfield hfail
  | ok _ =>
    rw [declared, ok_bind] at h
    split at h
    · split at h
      · next name hname =>
        cases h
        have unknown := List.find?_some hname
        refine .undeclared (List.mem_of_find?_eq_some hname) fun hmem => ?_
        rw [Option.isNone_iff_eq_none] at unknown
        rw [SchemaKind.mem_names, unknown] at hmem
        contradiction
      · contradiction
    · contradiction

theorem exists_faulty_of_not_conforms (h : ¬record.Conforms kind) :
    ∃ fault, checkRecord kind record = .error fault ∧ record.Faulty kind fault := by
  cases checked : checkRecord kind record with
  | error fault => exact ⟨fault, rfl, faulty_of_checkRecord checked⟩
  | ok _ => exact absurd (wellFormed_iff_conforms.1 (checkRecord_eq_ok.1 checked)) h

end Record

/-- The id has a character that is not white space, and no underscore. -/
def IsId (id : String) : Prop :=
  (∃ c ∈ id.toList, isBlankChar c = false) ∧ '_' ∉ id.toList

theorem isId_iff {id : String} : IsId id ↔ isValidId id = true := by
  simp [IsId, isValidId, isBlank]

namespace Dataset

variable {id : String} {kind : SchemaKind} {record : Record} {front : List Record}

theorem exists_build_iff {records : List Record} : (∃ d, build id kind records = .ok d) ↔
    IsId id ∧ ∀ record ∈ records, record.Conforms kind := by
  simp only [build_eq_ok, isId_iff, Record.wellFormed_iff_conforms, exists_and_left, exists_eq,
    and_true]

/-- Records that are in order are passed over, and counted. -/
theorem checkRecords_append {start : Nat} (h : ∀ record ∈ front, record.Conforms kind)
    (rest : List Record) : checkRecords id kind start (front ++ rest) =
      checkRecords id kind (start + front.length) rest := by
  induction front generalizing start with
  | nil => rfl
  | cons record front ih =>
    obtain ⟨head, tail⟩ := List.forall_mem_cons.1 h
    have checked := checkRecord_eq_ok.2 (Record.wellFormed_iff_conforms.2 head)
    rw [List.cons_append, checkRecords, checked]
    simp only [ih tail, List.length_cons]
    congr 1
    omega

/-- The first record that does not conform is refused by its place and a fault that it has. -/
theorem exists_build_eq_error (valid : IsId id) (h : ∀ record ∈ front, record.Conforms kind)
    (fails : ¬record.Conforms kind) (back : List Record) : ∃ fault, record.Faulty kind fault ∧
      build id kind (front ++ record :: back) =
        .error (.malformedRecord id front.length fault) := by
  obtain ⟨fault, checked, faulty⟩ := Record.exists_faulty_of_not_conforms fails
  refine ⟨fault, faulty, ?_⟩
  rw [build, if_pos (isId_iff.1 valid), checkRecords_append h, checkRecords, checked, Nat.zero_add]
  rfl

theorem exists_first_of_not_conforms {records : List Record}
    (h : ¬∀ record ∈ records, record.Conforms kind) : ∃ front record back,
      records = front ++ record :: back ∧ (∀ other ∈ front, other.Conforms kind) ∧
        ¬record.Conforms kind := by
  classical
  have found : (records.find? fun record => ¬record.Conforms kind).isSome := by
    simpa using h
  obtain ⟨record, hrecord⟩ := Option.isSome_iff_exists.1 found
  obtain ⟨fails, front, back, rfl, before⟩ := List.find?_eq_some_iff_append.1 hrecord
  exact ⟨front, record, back, rfl, by simpa using before, by simpa using fails⟩

/-- Datasets are made of an id that can stand in a key and of records that conform, as they are.
Otherwise the first record that does not conform is named, with a fault that it has; if all that is
wrong with it are further fields, with one of these. -/
theorem build_accepts_conforming (id : String) (kind : SchemaKind) (records : List Record) :
    ((∃ d, build id kind records = .ok d) ↔
      IsId id ∧ ∀ record ∈ records, record.Conforms kind) ∧
    (∀ d, build id kind records = .ok d → d.id = id ∧ d.kind = kind ∧ d.records = records) ∧
    (IsId id → ∀ e, build id kind records = .error e → ∃ front record back fault,
      records = front ++ record :: back ∧ (∀ other ∈ front, other.Conforms kind) ∧
        ¬record.Conforms kind ∧ record.Faulty kind fault ∧
          e = .malformedRecord id front.length fault) ∧
    ∀ front record back, records = front ++ record :: back → record.Exceeds kind →
      (∃ e, build id kind records = .error e) ∧
        (IsId id → (∀ other ∈ front, other.Conforms kind) →
          ∃ name ∈ record.names, name ∉ kind.fields.map Field.name ∧
            build id kind records = .error (.malformedRecord id front.length (.undeclared name))) := by
  refine ⟨exists_build_iff, ?_, ?_, ?_⟩
  · intro d h
    obtain ⟨-, -, rfl⟩ := build_eq_ok.1 h
    exact ⟨rfl, rfl, rfl⟩
  · intro valid e h
    have fails : ¬∀ record ∈ records, record.Conforms kind := by
      intro conform
      obtain ⟨d, hd⟩ := exists_build_iff.2 ⟨valid, conform⟩
      rw [h] at hd
      contradiction
    obtain ⟨front, record, back, rfl, before, first⟩ := exists_first_of_not_conforms fails
    obtain ⟨fault, faulty, refused⟩ := exists_build_eq_error valid before first back
    exact ⟨front, record, back, fault, rfl, before, first, faulty,
      Except.error.inj (h.symm.trans refused)⟩
  · rintro front record back rfl exceeds
    have fails := exceeds.not_conforms
    constructor
    · cases h : build id kind (front ++ record :: back) with
      | error e => exact ⟨e, rfl⟩
      | ok d => exact absurd ((exists_build_iff.1 ⟨d, h⟩).2 record (by simp)) fails
    · intro valid before
      obtain ⟨fault, faulty, refused⟩ := exists_build_eq_error valid before fails back
      obtain ⟨name, there, undeclared, rfl⟩ := exceeds.exists_undeclared faulty
      exact ⟨name, there, undeclared, refused⟩

/-- Sections are taken as they are, until one has a field that is not declared. -/
theorem build_accepts_conforming_sample :
    (∃ d, build "cs" .courses sampleSections = .ok d ∧ d.records = sampleSections) ∧
      ∃ name, name ∉ SchemaKind.courses.fields.map Field.name ∧
        build "cs" .courses
            (sampleSections ++ [(sampleSection 60 0 "math").insert "room" (.number 1)]) =
          .error (.malformedRecord "cs" 3 (.undeclared name)) := by
  have conform : ∀ record ∈ sampleSections, record.Conforms .courses := fun record hrecord =>
    Record.wellFormed_iff_conforms.1 (sampleSections_wellFormed record hrecord)
  have valid : IsId "cs" := isId_iff.2 (by decide)
  have exceeds : Record.Exceeds .courses ((sampleSection 60 0 "math").insert "room" (.number 1)) :=
    (Record.wellFormed_iff_conforms.1 (sampleSection_wellFormed _ _ _)).exceeds_insert (by decide) _
  constructor
  · obtain ⟨accepts, kept, -⟩ := build_accepts_conforming "cs" .courses sampleSections
    obtain ⟨d, hd⟩ := accepts.2 ⟨valid, conform⟩
    exact ⟨d, hd, (kept d hd).2.2⟩
  · obtain ⟨-, -, -, refuses⟩ := build_accepts_conforming "cs" .courses (sampleSections ++ _)
    obtain ⟨name, -, undeclared, refused⟩ := (refuses _ _ [] rfl exceeds).2 valid conform
    exact ⟨name, undeclared, refused⟩

end Dataset

end CampusQuery
