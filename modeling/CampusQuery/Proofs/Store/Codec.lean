import CampusQuery.Store.Codec
import CampusQuery.Proofs.Data.Alike
import CampusQuery.Proofs.Data.Dictionary
import CampusQuery.Proofs.Json.Literal
import CampusQuery.Proofs.Json.Raw
import CampusQuery.Proofs.Text.Bytes

/-!
Stored datasets. Main statement: the bytes of a checked dataset whose numbers survive their texts are
read as that dataset, up to the signs of zeros.
-/

namespace CampusQuery

namespace FieldValue

/-- A number that JSON has a text for, or a text. -/
def IsFinite : FieldValue → Prop
  | .number x => CampusQuery.IsFinite x
  | .text _ => True

instance : DecidablePred IsFinite
  | .number x => inferInstanceAs (Decidable (CampusQuery.IsFinite x))
  | .text _ => .isTrue trivial

theorem IsFinite.isOrdered {value : FieldValue} (h : value.IsFinite) : value.IsOrdered := by
  cases value with
  | number x => exact isNaN_of_isFinite h
  | text s => trivial

/-- JSON has no text for a number that is not finite. -/
theorem chars_of_not_isFinite {x : Float} (h : ¬CampusQuery.IsFinite x) :
    NumberLayout.json.chars x = ['n', 'u', 'l', 'l'] ∧ wholeJson? x = none := by
  have bits : magnitudeBits x < 2 ^ 63 := Nat.mod_lt _ (Nat.two_pow_pos 63)
  have large : 2047 * 2 ^ 52 ≤ magnitudeBits x := Nat.not_lt.1 h
  have field : magnitudeBits x / 2 ^ 52 = 2047 := by omega
  have special : BinaryValue.ofFloat x = .infinite (signBit x) ∨
      BinaryValue.ofFloat x = .nan := by
    unfold BinaryValue.ofFloat
    simp only
    rw [if_pos field]
    split
    · exact .inl rfl
    · exact .inr rfl
  rw [wholeJson?, wholeValue?, NumberLayout.chars]
  rcases special with hx | hx <;> rw [hx] <;> cases signBit x <;> exact ⟨rfl, rfl⟩

/-- The value's text is read as the value. A whole number that is written as an integer always is. -/
def SurvivesText : FieldValue → Prop
  | .number x => wholeJson? x = none → CampusQuery.SurvivesText x
  | .text _ => True

instance : DecidablePred SurvivesText
  | .number x => inferInstanceAs (Decidable (wholeJson? x = none → CampusQuery.SurvivesText x))
  | .text _ => .isTrue trivial

theorem SurvivesText.isFinite {value : FieldValue} (h : value.SurvivesText) : value.IsFinite := by
  cases value with
  | text s => trivial
  | number x =>
    by_contra infinite
    obtain ⟨written, fraction⟩ := chars_of_not_isFinite infinite
    have read := h fraction
    rw [CampusQuery.SurvivesText, written] at read
    contradiction

/-- The value that a raw one stands for, a number rounded once. -/
def nearest? : RawJson → Option FieldValue
  | .number literal => some (.number literal.nearest)
  | .string s => s.map .text
  | _ => none

/-- The text of a value is a literal or a string that stands for it, and is read as it if it survives
its text. -/
theorem exists_raw {value : FieldValue} (h : value.IsFinite) : value.toJson.Legible ∧
    (∃ other, nearest? value.toJson.raw = some other ∧ value.Alike other) ∧
      (value.SurvivesText → ∃ other, ofRaw? value.toJson.raw = some other ∧ value.Alike other) := by
  cases value with
  | text s => exact ⟨trivial, ⟨.text s, rfl, rfl⟩, fun _ => ⟨.text s, rfl, rfl⟩⟩
  | number x =>
    obtain ⟨n, literal, htext, hread, hnearest, hsurvives⟩ := exists_literal h
    have hliteral : n.literal = literal := by rw [JsonNumber.literal, hread, Option.getD_some]
    have legible : (Json.number n).Legible := Option.isSome_iff_exists.2 ⟨literal, hread⟩
    have ideal : Alike (.number x) (.number literal.nearest) := hnearest.symm
    rw [htext, Json.raw, hliteral]
    refine ⟨legible, ⟨_, rfl, ideal⟩, fun survives => ?_⟩
    obtain ⟨m, hnumber, hlike⟩ := hsurvives survives
    have alike : Alike (.number x) (.number m.toDouble) := hlike.symm
    exact ⟨_, by rw [ofRaw?, hnumber, Option.map_some], alike⟩

theorem legible_toJson {value : FieldValue} (h : value.IsFinite) : value.toJson.Legible :=
  (exists_raw h).1

/-- A stored value that survives its text is read back, a zero without its sign. -/
theorem exists_ofRaw? {value : FieldValue} (h : value.SurvivesText) :
    ∃ other, ofRaw? value.toJson.raw = some other ∧ value.Alike other :=
  (exists_raw h.isFinite).2.2 h

theorem alike_of_raw_eq {a b : FieldValue} (ha : a.IsFinite) (hb : b.IsFinite)
    (h : a.toJson.raw = b.toJson.raw) : a.Alike b := by
  obtain ⟨c, hc, alike⟩ := (exists_raw ha).2.1
  obtain ⟨c', hc', alike'⟩ := (exists_raw hb).2.1
  rw [h, hc'] at hc
  obtain rfl := Option.some.inj hc
  exact alike.trans alike'.symm

end FieldValue

namespace Record

/-- Every number in the record is finite. -/
def IsFinite (record : Record) : Prop :=
  ∀ entry ∈ record.entries, entry.2.IsFinite

instance : DecidablePred IsFinite := fun record =>
  inferInstanceAs (Decidable (∀ entry ∈ record.entries, entry.2.IsFinite))

theorem legible_toJson {record : Record} (h : record.IsFinite) : record.toJson.Legible := by
  rw [toJson, Json.Legible, Json.legibleMembers_iff]
  intro member hmember
  obtain ⟨entry, hentry, rfl⟩ := List.mem_map.1 hmember
  exact FieldValue.legible_toJson (h entry hentry)

/-- Every value in the record survives its text. -/
def SurvivesText (record : Record) : Prop :=
  ∀ entry ∈ record.entries, entry.2.SurvivesText

instance : DecidablePred SurvivesText := fun record =>
  inferInstanceAs (Decidable (∀ entry ∈ record.entries, entry.2.SurvivesText))

theorem SurvivesText.isFinite {record : Record} (h : record.SurvivesText) : record.IsFinite :=
  fun entry hentry => (h entry hentry).isFinite

/-- An object of named values is read entry by entry. -/
theorem ofRaw?_object (raw : FieldValue → RawJson) (entries : Entries FieldValue) :
    ofRaw? (.object (entries.map fun entry => (some entry.1, raw entry.2))) =
      (entries.mapM fun entry => (FieldValue.ofRaw? (raw entry.2)).map (entry.1, ·)).map
        Dictionary.ofList := by
  have members : (entries.mapM fun entry => (do
      return (entry.1, ← FieldValue.ofRaw? (raw entry.2)) : Option _)) =
      entries.mapM fun entry => (FieldValue.ofRaw? (raw entry.2)).map (entry.1, ·) := by
    congr
    funext entry
    cases FieldValue.ofRaw? (raw entry.2) <;> rfl
  rw [ofRaw?, List.mapM_map, ← members, Option.map_eq_bind]
  rfl

theorem exists_ofRaw? {record : Record} (h : record.SurvivesText) :
    ∃ other, ofRaw? record.toJson.raw = some other ∧ record.Alike other := by
  obtain ⟨entries, hread, hlike⟩ : ∃ entries : Entries FieldValue,
      record.entries.mapM (fun entry => (FieldValue.ofRaw? entry.2.toJson.raw).map (entry.1, ·)) =
        some entries ∧ Entries.Alike record.entries entries := by
    apply exists_mapM_eq_some
    intro entry hentry
    obtain ⟨other, hother, hlike⟩ := FieldValue.exists_ofRaw? (h entry hentry)
    exact ⟨(entry.1, other), by rw [hother, Option.map_some], rfl, hlike⟩
  have ascending : entries.Ascending := by
    have names : (entries.map (·.1)).Pairwise (· < ·) := by
      rw [← Entries.Alike.names_eq hlike]
      exact List.pairwise_map.2 record.ascending
    exact List.pairwise_map.1 names
  refine ⟨Dictionary.ofList entries, ?_, ?_⟩
  · rw [toJson, Json.raw, Json.rawMembers_eq_map, List.map_map]
    exact (ofRaw?_object (fun value => value.toJson.raw) record.entries).trans
      (congrArg (Option.map Dictionary.ofList) hread)
  · rw [Alike, Dictionary.entries_ofList ascending]
    exact hlike

end Record

namespace Dataset

def IsFinite (d : Dataset) : Prop :=
  ∀ record ∈ d.records, record.IsFinite

instance : DecidablePred IsFinite := fun d =>
  inferInstanceAs (Decidable (∀ record ∈ d.records, record.IsFinite))

variable {d : Dataset}

theorem legible_toJson (h : d.IsFinite) : d.toJson.Legible := by
  have records : Json.LegibleItems (d.records.map Record.toJson) := by
    rw [Json.legibleItems_iff]
    intro item hitem
    obtain ⟨record, hrecord, rfl⟩ := List.mem_map.1 hitem
    exact Record.legible_toJson (h record hrecord)
  exact ⟨trivial, trivial, records, trivial⟩

/-- Every value in the dataset survives its text, so that all its numbers are finite. -/
def SurvivesText (d : Dataset) : Prop :=
  ∀ record ∈ d.records, record.SurvivesText

instance : DecidablePred SurvivesText := fun d =>
  inferInstanceAs (Decidable (∀ record ∈ d.records, record.SurvivesText))

theorem SurvivesText.isFinite (h : d.SurvivesText) : d.IsFinite :=
  fun record hrecord => (h record hrecord).isFinite

theorem raw_toJson (d : Dataset) : d.toJson.raw = .object [(some "id", .string (some d.id)),
    (some "kind", .string (some d.kind.name)),
    (some "records", .array (d.records.map fun record => record.toJson.raw))] := by
  rw [toJson, Json.raw]
  simp only [Json.rawMembers, Json.raw, Json.rawItems_eq_map, List.map_map]
  rfl

theorem exists_recordsOfRaw? (h : d.SurvivesText) : ∃ records,
    recordsOfRaw? (.array (d.records.map fun record => record.toJson.raw)) = some records ∧
      List.Forall₂ Record.Alike d.records records := by
  rw [recordsOfRaw?, List.mapM_map]
  exact exists_mapM_eq_some fun record hrecord => Record.exists_ofRaw? (h record hrecord)

/-- A stored dataset whose numbers survive is read back, up to the signs of zeros. -/
theorem exists_decode?_encode (built : d.Built) (survives : d.SurvivesText) :
    ∃ e, decode? d.encode = some e ∧ d.Alike e := by
  obtain ⟨records, hrecords, hlike⟩ := exists_recordsOfRaw? survives
  have alike : d.Alike ⟨d.id, d.kind, records⟩ := ⟨rfl, rfl, hlike⟩
  refine ⟨_, ?_, alike⟩
  have parts : partsOfRaw? d.toJson.raw = some (.string (some d.id), .string (some d.kind.name),
      .array (d.records.map fun record => record.toJson.raw)) := by
    rw [raw_toJson]
    rfl
  rw [decode?, encode, fromUTF8?_toUTF8, Option.bind_some, ofText?, Dataset.text,
    Json.parse?_compact (legible_toJson survives.isFinite), Option.bind_some, ofRaw?, parts]
  simp only [Option.bind_eq_bind, Option.bind_some, RawJson.string?, SchemaKind.ofRaw?,
    SchemaKind.ofName?_name, hrecords]
  exact congrArg Except.toOption (alike.built built)

end Dataset

end CampusQuery
