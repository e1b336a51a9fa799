import Mathlib.Data.List.Lex
import Mathlib.Order.Basic
import CampusQuery.Text.Utf8

/-!
Texts as bytes. Main statements: the order of texts by their characters is the order of their UTF-8
bytes, and bytes are those of a text exactly if they are read as it.
-/

namespace CampusQuery

theorem utf8_eq (s : String) : utf8 s = s.toList.flatMap String.utf8EncodeChar := by
  conv_lhs => rw [← String.ofList_toList (s := s)]
  exact List.toList_data_toByteArray

theorem utf8_append (s t : String) : utf8 (s ++ t) = utf8 s ++ utf8 t := by
  rw [utf8_eq, utf8_eq, utf8_eq, String.toList_append, List.flatMap_append]

theorem utf8_injective {s t : String} (h : utf8 s = utf8 t) : s = t :=
  String.toByteArray_inj.1 (ByteArray.ext (Array.toList_inj.1 h))

theorem fromUTF8?_toUTF8 (s : String) : String.fromUTF8? s.toUTF8 = some s :=
  dif_pos s.isValidUTF8

theorem toByteArray_of_fromUTF8? {bytes : ByteArray} {text : String}
    (h : String.fromUTF8? bytes = some text) : text.toByteArray = bytes := by
  unfold String.fromUTF8? at h
  split at h
  · cases h
    rfl
  · contradiction

theorem textOfUtf8?_eq_some_iff {bytes : List UInt8} {s : String} :
    textOfUtf8? bytes = some s ↔ bytes = utf8 s := by
  constructor
  · intro h
    rw [utf8, toByteArray_of_fromUTF8? h]
  · rintro rfl
    exact fromUTF8?_toUTF8 s

/-- A byte below 128 is one of a character with its code. -/
theorem toNat_of_mem_utf8EncodeChar {c : Char} {byte : UInt8} (h : byte ∈ String.utf8EncodeChar c)
    (ascii : byte.toNat < 128) : c.toNat = byte.toNat := by
  unfold String.utf8EncodeChar at h
  simp only [Char.toNat_val] at h
  generalize c.toNat = v at h ⊢
  repeat' split at h
  all_goals
    simp only [List.mem_cons, List.not_mem_nil, or_false, ← UInt8.toNat_inj,
      UInt8.toNat_ofNat'] at h
    omega

theorem mem_toList_of_mem_utf8 {s : String} {c : Char} {byte : UInt8} (h : byte ∈ utf8 s)
    (code : byte.toNat = c.toNat) (ascii : c.toNat < 128) : c ∈ s.toList := by
  rw [utf8_eq, List.mem_flatMap] at h
  obtain ⟨d, hd, hbyte⟩ := h
  have same := toNat_of_mem_utf8EncodeChar hbyte (code ▸ ascii)
  rwa [Char.toNat_inj.1 (same.trans code)] at hd

theorem ofNat_cons_lt {a b : Nat} {xs ys : List UInt8} (bound : b < 256) (le : a ≤ b)
    (tail : a = b → xs < ys) : UInt8.ofNat a :: xs < UInt8.ofNat b :: ys := by
  rw [List.cons_lt_cons_iff, UInt8.lt_iff_toNat_lt, UInt8.toNat_ofNat_of_lt' bound,
    UInt8.toNat_ofNat_of_lt' (Nat.lt_of_le_of_lt le bound)]
  obtain lt | rfl := Nat.lt_or_eq_of_le le
  · exact .inl lt
  · exact .inr ⟨rfl, tail rfl⟩

/-- A lesser character has the lesser bytes, whatever comes after. -/
theorem utf8EncodeChar_lt {c d : Char} (h : c < d) (xs ys : List UInt8) :
    String.utf8EncodeChar c ++ xs < String.utf8EncodeChar d ++ ys := by
  have lt : c.toNat < d.toNat := h
  have bound : d.toNat < 0x110000 := by
    have valid : d.toNat < 0xd800 ∨ 0xdfff < d.toNat ∧ d.toNat < 0x110000 := d.valid
    omega
  unfold String.utf8EncodeChar
  simp only [Char.toNat_val]
  generalize c.toNat = v at lt ⊢
  generalize d.toNat = w at lt bound ⊢
  -- Characters of unequal size differ in their first bytes, others at the latest in the last.
  split
  · split
    · exact ofNat_cons_lt (by omega) (by omega) (by omega)
    · split
      · exact ofNat_cons_lt (by omega) (by omega) (by omega)
      · split <;> exact ofNat_cons_lt (by omega) (by omega) (by omega)
  · rw [if_neg (by omega : ¬w ≤ 0x7f)]
    split
    · split
      · exact ofNat_cons_lt (by omega) (by omega) fun _ =>
          ofNat_cons_lt (by omega) (by omega) (by omega)
      · split <;> exact ofNat_cons_lt (by omega) (by omega) (by omega)
    · rw [if_neg (by omega : ¬w ≤ 0x7ff)]
      split
      · split
        · exact ofNat_cons_lt (by omega) (by omega) fun _ =>
            ofNat_cons_lt (by omega) (by omega) fun _ =>
              ofNat_cons_lt (by omega) (by omega) (by omega)
        · exact ofNat_cons_lt (by omega) (by omega) (by omega)
      · rw [if_neg (by omega : ¬w ≤ 0xffff)]
        exact ofNat_cons_lt (by omega) (by omega) fun _ =>
          ofNat_cons_lt (by omega) (by omega) fun _ =>
            ofNat_cons_lt (by omega) (by omega) fun _ =>
              ofNat_cons_lt (by omega) (by omega) (by omega)

theorem flatMap_utf8EncodeChar_lt {cs ds : List Char} (h : cs < ds) :
    cs.flatMap String.utf8EncodeChar < ds.flatMap String.utf8EncodeChar := by
  induction h with
  | @nil d ds =>
    rw [List.flatMap_nil, List.flatMap_cons]
    obtain ⟨byte, bytes, encoded⟩ :=
      List.exists_cons_of_ne_nil (String.utf8EncodeChar_ne_nil (c := d))
    rw [encoded]
    exact List.nil_lt_cons _ _
  | cons _ ih =>
    rw [List.flatMap_cons, List.flatMap_cons]
    exact List.append_left_lt ih
  | rel h =>
    rw [List.flatMap_cons, List.flatMap_cons]
    exact utf8EncodeChar_lt h _ _

theorem utf8_lt {s t : String} (h : s < t) : utf8 s < utf8 t := by
  rw [utf8_eq, utf8_eq]
  exact flatMap_utf8EncodeChar_lt h

/-- Texts are ordered as their bytes. -/
theorem lt_iff_utf8_lt {s t : String} : s < t ↔ utf8 s < utf8 t := by
  refine ⟨utf8_lt, fun h => ?_⟩
  by_contra hst
  by_cases hts : t < s
  · exact List.lt_asymm h (utf8_lt hts)
  · obtain rfl : s = t := String.le_antisymm hts hst
    exact List.lt_irrefl _ h

end CampusQuery
