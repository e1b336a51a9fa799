import CampusQuery.Proofs.Store.Codec

/-!
Stored text as a form of its own for each dataset. Main statement: two checked datasets of finite
numbers have the same text exactly if they are equal, and one whose numbers survive is read back as
an equal one.
-/

namespace CampusQuery

/-- The text of a document tells it from others. -/
theorem Json.raw_eq_of_compact_eq {a b : Json} (ha : a.Legible) (hb : b.Legible)
    (h : a.compact = b.compact) : a.raw = b.raw := by
  apply Option.some.inj
  rw [← parse?_compact ha, h, parse?_compact hb]

namespace FieldValue

/-- Values have the same text if they are equal, and only then: both zeros share one, and no whole
number has the text of another number or of a string. -/
theorem compact_toJson_eq_iff {a b : FieldValue} (ha : a.IsFinite) (hb : b.IsFinite) :
    a.toJson.compact = b.toJson.compact ↔ (a == b) = true := by
  constructor
  · intro h
    have raw := Json.raw_eq_of_compact_eq (legible_toJson ha) (legible_toJson hb) h
    exact (alike_of_raw_eq ha hb raw).beq_eq_true ha.isOrdered
  · intro h
    rw [(alike_of_beq h).toJson_eq]

end FieldValue

theorem Record.alike_of_raw_eq {a b : Record} (ha : a.IsFinite) (hb : b.IsFinite)
    (h : a.toJson.raw = b.toJson.raw) : a.Alike b := by
  rw [toJson, toJson, Json.raw, Json.raw, Json.rawMembers_eq_map, Json.rawMembers_eq_map,
    List.map_map, List.map_map] at h
  have members := RawJson.object.inj h
  rw [← List.forall₂_eq_eq_eq, List.forall₂_map_left_iff, List.forall₂_map_right_iff] at members
  refine forall₂_imp_of_mem members fun entry hentry other hother same => ?_
  obtain ⟨name, value⟩ := Prod.mk.inj same
  exact ⟨Option.some.inj name,
    FieldValue.alike_of_raw_eq (ha entry hentry) (hb other hother) value⟩

namespace Dataset

variable {d e : Dataset}

theorem Alike.toJson_eq (h : d.Alike e) : d.toJson = e.toJson := by
  have records : d.records.map Record.toJson = e.records.map Record.toJson := by
    refine List.forall₂_eq_eq_eq ▸ ?_
    rw [List.forall₂_map_left_iff, List.forall₂_map_right_iff]
    exact h.records.imp fun _ _ same => congrArg Json.object (Entries.Alike.toJson_eq same)
  rw [toJson, toJson, h.id, h.kind, records]

theorem equal_iff_alike (finite : d.IsFinite) : d.equal e = true ↔ d.Alike e :=
  ⟨alike_of_equal, fun h => h.equal_eq_true fun record hrecord entry hentry =>
    (finite record hrecord entry hentry).isOrdered⟩

theorem alike_of_encode_eq (finite : d.IsFinite) (finite' : e.IsFinite) (h : d.encode = e.encode) :
    d.Alike e := by
  have text : d.text = e.text := String.toByteArray_inj.1 h
  have raw := Json.raw_eq_of_compact_eq (legible_toJson finite) (legible_toJson finite') text
  rw [raw_toJson, raw_toJson] at raw
  simp only [RawJson.object.injEq, List.cons.injEq, Prod.mk.injEq, RawJson.string.injEq,
    RawJson.array.injEq, Option.some.injEq, true_and, and_true] at raw
  obtain ⟨id, kind, records⟩ := raw
  refine ⟨id, ?_, ?_⟩
  · apply Option.some.inj
    rw [← SchemaKind.ofName?_name d.kind, kind, SchemaKind.ofName?_name]
  · rw [← List.forall₂_eq_eq_eq, List.forall₂_map_left_iff, List.forall₂_map_right_iff] at records
    exact forall₂_imp_of_mem records fun record hrecord other hother same =>
      Record.alike_of_raw_eq (finite record hrecord) (finite' other hother) same

/-- The bytes of checked datasets of finite numbers are the same exactly for equal datasets, as the
text of a single value is for equal values. If the numbers survive their texts, a dataset is read
back from its bytes as an equal one. -/
theorem stored_bytes_canonical (hd : d.Built) (finite : d.IsFinite) (finite' : e.IsFinite) :
    (d.SurvivesText → ∃ f, decode? d.encode = some f ∧ d.equal f = true) ∧
      (d.encode = e.encode ↔ d.equal e = true) ∧
        ∀ a b : FieldValue, a.IsFinite → b.IsFinite →
          (a.toJson.compact = b.toJson.compact ↔ (a == b) = true) := by
  refine ⟨fun survives => ?_, ⟨fun h => ?_, fun h => ?_⟩,
    fun a b => FieldValue.compact_toJson_eq_iff⟩
  · obtain ⟨f, hread, alike⟩ := exists_decode?_encode hd survives
    exact ⟨f, hread, (equal_iff_alike finite).2 alike⟩
  · exact (equal_iff_alike finite).2 (alike_of_encode_eq finite finite' h)
  · rw [encode, encode, text, text, (alike_of_equal h).toJson_eq]

/-- A dataset of one section, with the sign of a zero to choose. -/
def ofSection (audit : Float) : Dataset :=
  ⟨"cs", .courses, [sampleSection 91.5 audit "cpsc"]⟩

theorem built_ofSection (audit : Float) : (ofSection audit).Built :=
  built_iff.2 ⟨(by decide : isValidId "cs" = true), List.forall_mem_singleton.2 (sampleSection_wellFormed _ _ _)⟩

theorem stored_bytes_canonical_sample :
    (∃ f, decode? (ofSection (-0.0)).encode = some f ∧ (ofSection (-0.0)).equal f = true) ∧
      (ofSection 0.0).encode = (ofSection (-0.0)).encode ∧
        (FieldValue.number 9007199254740992).toJson.compact ≠
            (FieldValue.number 9007199254740991).toJson.compact ∧
          (FieldValue.number 90).toJson.compact ≠ (FieldValue.text "90").toJson.compact := by
  have finite : (ofSection 0.0).IsFinite ∧ (ofSection (-0.0)).IsFinite := by decide +kernel
  have survives : (ofSection (-0.0)).SurvivesText := by decide +kernel
  obtain ⟨-, same, apart⟩ := stored_bytes_canonical (built_ofSection 0.0) finite.1 finite.2
  obtain ⟨read, -⟩ := stored_bytes_canonical (built_ofSection (-0.0)) finite.2 finite.2
  refine ⟨read survives, same.2 (by decide +kernel), fun h => ?_, fun h => ?_⟩
  · exact absurd ((apart (.number 9007199254740992) (.number 9007199254740991) (by decide +kernel)
      (by decide +kernel)).1 h) (by decide +kernel)
  · exact absurd ((apart (.number 90) (.text "90") (by decide +kernel) trivial).1 h) (by decide)

end Dataset

end CampusQuery
