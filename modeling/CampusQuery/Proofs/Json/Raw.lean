import CampusQuery.Json.Raw
import CampusQuery.Proofs.Json.Token

/-!
Reading of written JSON text. Main statement: the text of a document in which every number is one
literal is read as that document, with its literals and its members in their order.
-/

namespace CampusQuery

namespace Json

mutual

/-- The document as it stands in its text. -/
def raw : Json → RawJson
  | .null => .null
  | .bool b => .bool b
  | .number n => .number n.literal
  | .string s => .string (some s)
  | .array items => .array (rawItems items)
  | .object members => .object (rawMembers members)

def rawItems : List Json → List RawJson
  | [] => []
  | item :: rest => raw item :: rawItems rest

def rawMembers : List (String × Json) → List (Option String × RawJson)
  | [] => []
  | (name, value) :: rest => (some name, raw value) :: rawMembers rest

end

open RawBuilder

/-- No value begins with the end of an array. -/
theorem run_itemOrEnd (json : Json) (frames : List RawFrame) (rest : List JsonToken) :
    (RawBuilder.reading frames .itemOrEnd).run (json.tokens ++ rest) =
      (RawBuilder.reading frames .value).run (json.tokens ++ rest) := by
  cases json with
  | array items => cases items <;> rfl
  | object members => cases members <;> rfl
  | _ => rfl

mutual

/-- The tokens of a document make up its raw form. -/
theorem run_tokens : ∀ (json : Json) (frames : List RawFrame) (rest : List JsonToken),
    (RawBuilder.reading frames .value).run (json.tokens ++ rest) =
      (complete json.raw frames).run rest
  | .null, _, _ => rfl
  | .bool _, _, _ => rfl
  | .number _, _, _ => rfl
  | .string _, _, _ => rfl
  | .array [], _, _ => rfl
  | .array (item :: items), frames, rest => by
    rw [tokens, List.cons_append, List.append_assoc]
    change (RawBuilder.reading (.array [] :: frames) .itemOrEnd).run _ = _
    rw [run_itemOrEnd, run_tokens item]
    exact run_itemTokens items [item.raw] frames rest
  | .object [], _, _ => rfl
  | .object ((name, value) :: members), frames, rest => by
    rw [tokens]
    simp only [List.cons_append, List.append_assoc]
    change (RawBuilder.reading (.object [] (some name) :: frames) .value).run _ = _
    rw [run_tokens value]
    exact run_memberTokens members [(some name, value.raw)] (some name) frames rest

theorem run_itemTokens : ∀ (items : List Json) (before : List RawJson) (frames : List RawFrame)
    (rest : List JsonToken),
    (RawBuilder.reading (.array before :: frames) .commaOrEnd).run (itemTokens items ++ rest) =
      (complete (.array (before.reverse ++ rawItems items)) frames).run rest
  | [], before, frames, rest => by
    rw [rawItems, List.append_nil]
    rfl
  | item :: items, before, frames, rest => by
    rw [itemTokens, List.cons_append, List.append_assoc]
    change (RawBuilder.reading (.array before :: frames) .value).run _ = _
    rw [run_tokens item]
    change (RawBuilder.reading (.array (item.raw :: before) :: frames) .commaOrEnd).run _ = _
    rw [run_itemTokens items, rawItems]
    simp

theorem run_memberTokens : ∀ (members : List (String × Json))
    (before : List (Option String × RawJson)) (last : Option String) (frames : List RawFrame)
    (rest : List JsonToken),
    (RawBuilder.reading (.object before last :: frames) .commaOrEnd).run
        (memberTokens members ++ rest) =
      (complete (.object (before.reverse ++ rawMembers members)) frames).run rest
  | [], before, last, frames, rest => by
    rw [rawMembers, List.append_nil]
    rfl
  | (name, value) :: members, before, last, frames, rest => by
    rw [memberTokens]
    simp only [List.cons_append, List.append_assoc]
    change (RawBuilder.reading (.object before (some name) :: frames) .value).run _ = _
    rw [run_tokens value]
    change (RawBuilder.reading (.object ((some name, value.raw) :: before) (some name) :: frames)
      .commaOrEnd).run _ = _
    rw [run_memberTokens members, rawMembers]
    simp

end

/-- The written text is read as the document. -/
theorem parse?_compact {json : Json} (h : json.Legible) :
    RawJson.parse? json.compact = some json.raw := by
  have built := run_tokens json [] []
  rw [List.append_nil] at built
  rw [RawJson.parse?, compact, String.toList_ofList, ofChars?_chars h, Option.bind_some,
    RawJson.ofTokens?, RawBuilder.start, built]
  rfl

theorem rawItems_eq_map (items : List Json) : rawItems items = items.map raw := by
  induction items with
  | nil => rfl
  | cons item items ih => rw [rawItems, ih, List.map_cons]

theorem rawMembers_eq_map (members : List (String × Json)) :
    rawMembers members = members.map fun member => (some member.1, member.2.raw) := by
  induction members with
  | nil => rfl
  | cons member members ih => rw [rawMembers, ih, List.map_cons]

theorem legibleItems_iff {items : List Json} :
    LegibleItems items ↔ ∀ item ∈ items, item.Legible := by
  induction items with
  | nil => simp [LegibleItems]
  | cons item items ih => rw [LegibleItems, ih, List.forall_mem_cons]

theorem legibleMembers_iff {members : List (String × Json)} :
    LegibleMembers members ↔ ∀ member ∈ members, member.2.Legible := by
  induction members with
  | nil => simp [LegibleMembers]
  | cons member members ih => rw [LegibleMembers, ih, List.forall_mem_cons]

end Json

end CampusQuery
