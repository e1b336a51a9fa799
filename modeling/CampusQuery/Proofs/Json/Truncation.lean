import CampusQuery.Proofs.Json.Raw
import CampusQuery.Proofs.Text.Bytes

/-!
Texts that are cut off. Main statements: the first bytes of a text are those of its first characters
or no text, and the first characters of a JSON text are no JSON text, a word or a number, where a
character that is no blank was cut off.
-/

namespace CampusQuery

/-! ### Bytes -/

/-- Characters whose bytes begin in the same way are the same. -/
theorem eq_of_utf8EncodeChar_append {c d : Char} {xs ys : List UInt8}
    (h : String.utf8EncodeChar c ++ xs = String.utf8EncodeChar d ++ ys) : c = d := by
  obtain less | same | more := Nat.lt_trichotomy c.toNat d.toNat
  · have := utf8EncodeChar_lt less xs ys
    rw [h] at this
    exact absurd this (List.lt_irrefl _)
  · exact Char.toNat_inj.1 same
  · have := utf8EncodeChar_lt more ys xs
    rw [h] at this
    exact absurd this (List.lt_irrefl _)

theorem exists_append_of_flatMap {cs ds : List Char} {rest : List UInt8}
    (h : cs.flatMap String.utf8EncodeChar ++ rest = ds.flatMap String.utf8EncodeChar) :
    ∃ back, ds = cs ++ back := by
  induction cs generalizing ds with
  | nil => exact ⟨ds, rfl⟩
  | cons c cs ih =>
    rw [List.flatMap_cons, List.append_assoc] at h
    cases ds with
    | nil =>
      have empty := (List.append_eq_nil_iff.1 h).1
      exact absurd empty (String.utf8EncodeChar_ne_nil (c := c))
    | cons d ds =>
      rw [List.flatMap_cons] at h
      obtain rfl := eq_of_utf8EncodeChar_append h
      obtain ⟨back, rfl⟩ := ih (List.append_cancel_left h)
      exact ⟨back, rfl⟩

/-- Of a text that is cut off between two bytes some characters are left, unless one is torn. -/
theorem exists_append_of_extract {whole text : String} {n : Nat} (hn : n < whole.toUTF8.size)
    (h : String.fromUTF8? (whole.toUTF8.extract 0 n) = some text) :
    ∃ back, back ≠ [] ∧ whole.toList = text.toList ++ back := by
  have bytes := toByteArray_of_fromUTF8? h
  have front : utf8 text = (utf8 whole).take n := by
    rw [utf8, bytes, ByteArray.data_extract, Array.toList_extract]
    rfl
  have split : utf8 text ++ (utf8 whole).drop n = utf8 whole := by
    rw [front, List.take_append_drop]
  rw [utf8_eq text, utf8_eq whole] at split
  obtain ⟨back, hback⟩ := exists_append_of_flatMap split
  refine ⟨back, ?_, hback⟩
  rintro rfl
  rw [List.append_nil, String.toList_inj] at hback
  have size := congrArg ByteArray.size bytes
  rw [ByteArray.size_extract, ← hback] at size
  change whole.toUTF8.size = _ at size
  omega

/-! ### Tokens -/

/-- A word or a number, which may end with the text. -/
inductive JsonToken.IsBare : JsonToken → Prop where
  | null : IsBare .null
  | bool (value : Bool) : IsBare (.bool value)
  | number (literal : NumberLiteral) : IsBare (.number literal)

namespace Lexer

variable {l next after : Lexer} {tokens settled : List JsonToken} {c : Char} {cs : List Char}

/-- How many tokens have begun. -/
def begun (l : Lexer) : Nat :=
  l.tokens.length + if l.mode = .between then 0 else 1

theorem isBare_of_word? {letters : List Char} {token : JsonToken}
    (h : word? letters = some token) : token.IsBare := by
  unfold word? at h
  split at h
  · cases h
    exact .null
  split at h
  · cases h
    exact .bool true
  split at h
  · cases h
    exact .bool false
  · contradiction

/-- Where the lexer has a last token to settle, it is a word or a number. -/
theorem settle?_cases (h : l.settle? = some settled) :
    l = ⟨.between, settled⟩ ∨ ∃ token, settled = token :: l.tokens ∧ token.IsBare := by
  obtain ⟨mode, tokens⟩ := l
  cases mode with
  | between =>
    cases h
    exact .inl rfl
  | word letters =>
    obtain ⟨token, htoken, rfl⟩ := Option.map_eq_some_iff.1 h
    exact .inr ⟨token, rfl, isBare_of_word? htoken⟩
  | number chars =>
    obtain ⟨literal, -, rfl⟩ := Option.map_eq_some_iff.1 h
    exact .inr ⟨_, rfl, .number literal⟩
  | string s => contradiction
  | escape s => contradiction
  | unit s digitsLeft value => contradiction

theorem length_of_settle? (h : l.settle? = some settled) : settled.length = l.begun := by
  obtain ⟨mode, tokens⟩ := l
  cases mode with
  | between =>
    cases h
    rfl
  | word letters =>
    obtain ⟨_, -, rfl⟩ := Option.map_eq_some_iff.1 h
    rfl
  | number chars =>
    obtain ⟨_, -, rfl⟩ := Option.map_eq_some_iff.1 h
    rfl
  | string s => contradiction
  | escape s => contradiction
  | unit s digitsLeft value => contradiction

theorem suffix_of_settle? (h : l.settle? = some settled) : l.tokens <:+ settled := by
  rcases settle?_cases h with rfl | ⟨token, rfl, -⟩
  · exact List.suffix_rfl
  · exact List.suffix_cons _ _

/-- Between two tokens a blank changes nothing, and any other character begins a token. -/
theorem feedBetween_cases (h : feedBetween tokens c = some next) :
    tokens <:+ next.tokens ∧
      (isJsonBlank c = true ∧ next = ⟨.between, tokens⟩ ∨
        isJsonBlank c = false ∧ next.begun = tokens.length + 1) := by
  unfold feedBetween at h
  split at h
  · next blank =>
    cases h
    exact ⟨List.suffix_rfl, .inl ⟨blank, rfl⟩⟩
  · next solid =>
    have solid : isJsonBlank c = false := Bool.eq_false_iff.2 solid
    repeat' split at h
    all_goals first
      | contradiction
      | cases h
        exact ⟨by simp, .inr ⟨solid, rfl⟩⟩

theorem le_begun_of_feedBetween (h : feedBetween tokens c = some next) :
    tokens.length ≤ next.begun := by
  rcases (feedBetween_cases h).2 with ⟨-, rfl⟩ | ⟨-, begun⟩
  · exact Nat.le_refl _
  · omega

/-- No token is taken back. -/
structure Grows (l next : Lexer) : Prop where
  tokens : l.tokens <:+ next.tokens
  begun : l.begun ≤ next.begun

theorem Grows.refl (l : Lexer) : l.Grows l :=
  ⟨List.suffix_rfl, Nat.le_refl _⟩

theorem Grows.trans (h : l.Grows next) (h' : next.Grows after) : l.Grows after :=
  ⟨h.tokens.trans h'.tokens, h.begun.trans h'.begun⟩

theorem grows_of_settle? (hsettled : l.settle? = some settled)
    (h : feedBetween settled c = some next) : l.Grows next where
  tokens := (suffix_of_settle? hsettled).trans (feedBetween_cases h).1
  begun := by
    rw [← length_of_settle? hsettled]
    exact le_begun_of_feedBetween h

theorem grows_of_feed (h : l.feed c = some next) : l.Grows next := by
  obtain ⟨mode, tokens⟩ := l
  cases mode with
  | between => exact ⟨(feedBetween_cases h).1, le_begun_of_feedBetween h⟩
  | word letters =>
    simp only [feed] at h
    split at h
    · cases h
      exact ⟨List.suffix_rfl, Nat.le_refl _⟩
    · obtain ⟨settled, hsettled, h⟩ := Option.bind_eq_some_iff.1 h
      exact grows_of_settle? hsettled h
  | number chars =>
    simp only [feed] at h
    split at h
    · cases h
      exact ⟨List.suffix_rfl, Nat.le_refl _⟩
    · obtain ⟨settled, hsettled, h⟩ := Option.bind_eq_some_iff.1 h
      exact grows_of_settle? hsettled h
  | string s =>
    simp only [feed] at h
    split at h
    · cases h
      exact ⟨List.suffix_cons _ _, Nat.le_refl _⟩
    split at h
    · cases h
      exact ⟨List.suffix_rfl, Nat.le_refl _⟩
    split at h
    · contradiction
    · cases h
      exact ⟨List.suffix_rfl, Nat.le_refl _⟩
  | escape s =>
    simp only [feed] at h
    split at h
    · cases h
      exact ⟨List.suffix_rfl, Nat.le_refl _⟩
    · obtain ⟨escaped, -, rfl⟩ := Option.map_eq_some_iff.1 h
      exact ⟨List.suffix_rfl, Nat.le_refl _⟩
  | unit s digitsLeft value =>
    obtain ⟨digit, -, rfl⟩ := Option.map_eq_some_iff.1 h
    split <;> exact ⟨List.suffix_rfl, Nat.le_refl _⟩

theorem exists_feed_of_run (h : l.run (c :: cs) = some after) :
    ∃ next, l.feed c = some next ∧ next.run cs = some after := by
  rw [run] at h
  split at h
  · contradiction
  · next next hnext => exact ⟨next, hnext, h⟩

theorem grows_of_run (h : l.run cs = some after) : l.Grows after := by
  induction cs generalizing l with
  | nil =>
    cases h
    exact .refl _
  | cons c cs ih =>
    obtain ⟨next, hnext, hrest⟩ := exists_feed_of_run h
    exact (grows_of_feed hnext).trans (ih hrest)

/-- Characters that are not all blank add a token. -/
theorem lt_begun_of_run (solid : ∃ c ∈ cs, isJsonBlank c = false)
    (h : run ⟨.between, tokens⟩ cs = some after) : tokens.length < after.begun := by
  induction cs with
  | nil => simp at solid
  | cons c cs ih =>
    obtain ⟨next, hnext, hrest⟩ := exists_feed_of_run h
    change feedBetween tokens c = some next at hnext
    rcases (feedBetween_cases hnext).2 with ⟨blank, rfl⟩ | ⟨-, begun⟩
    · refine ih ?_ hrest
      obtain ⟨d, hd, hsolid⟩ := solid
      rcases List.mem_cons.1 hd with rfl | hd
      · rw [hsolid] at blank
        contradiction
      · exact ⟨d, hd, hsolid⟩
    · have := (grows_of_run hrest).begun
      omega

end Lexer

/-! ### Documents -/

namespace RawJson

/-- A word or a number. -/
inductive IsBare : RawJson → Prop where
  | null : IsBare .null
  | bool (value : Bool) : IsBare (.bool value)
  | number (literal : NumberLiteral) : IsBare (.number literal)

end RawJson

namespace RawBuilder

theorem run_append (b : RawBuilder) (xs ys : List JsonToken) :
    b.run (xs ++ ys) = (b.run xs).bind (·.run ys) := by
  induction xs generalizing b with
  | nil => rfl
  | cons x xs ih =>
    simp only [List.cons_append, run]
    cases b.feed x with
    | none => rfl
    | some next => exact ih next

theorem complete_eq_done {value raw : RawJson} {frames : List RawFrame}
    (h : complete value frames = .done raw) : raw = value := by
  cases frames with
  | nil =>
    cases h
    rfl
  | cons frame frames => cases frame <;> contradiction

/-- A document that ends in a word or a number is that word or number. -/
theorem isBare_of_feed {b : RawBuilder} {token : JsonToken} {raw : RawJson}
    (bare : token.IsBare) (h : b.feed token = some (.done raw)) : raw.IsBare := by
  cases b with
  | done value => contradiction
  | reading frames expects =>
    have begins : beginValue frames token = some (.done raw) := by
      cases expects <;> cases bare <;> first | contradiction | exact h
    cases bare with
    | null =>
      rw [complete_eq_done (Option.some.inj begins)]
      exact .null
    | bool value =>
      rw [complete_eq_done (Option.some.inj begins)]
      exact .bool value
    | number literal =>
      rw [complete_eq_done (Option.some.inj begins)]
      exact .number literal

end RawBuilder

namespace RawJson

theorem parse?_eq_some_iff {text : String} {raw : RawJson} : parse? text = some raw ↔
    ∃ l settled, Lexer.start.run text.toList = some l ∧ l.settle? = some settled ∧
      RawBuilder.start.run settled.reverse = some (.done raw) := by
  simp only [parse?, JsonToken.ofChars?, ofTokens?, Option.bind_eq_some_iff,
    Option.map_eq_some_iff]
  constructor
  · rintro ⟨_, ⟨l, hrun, settled, hsettled, rfl⟩, b, hb, hraw⟩
    refine ⟨l, settled, hrun, hsettled, ?_⟩
    cases b with
    | done value =>
      cases hraw
      exact hb
    | reading frames expects => contradiction
  · rintro ⟨l, settled, hrun, hsettled, hb⟩
    exact ⟨_, ⟨l, hrun, settled, hsettled, rfl⟩, _, hb, rfl⟩

/-- Of a document that is cut off before a character that is no blank, what is left is no document,
or it is a word or a number. -/
theorem isBare_of_cut {text whole : String} {raw document : RawJson} {back : List Char}
    (hwhole : parse? whole = some document) (cut : whole.toList = text.toList ++ back)
    (solid : ∃ c ∈ back, Lexer.isJsonBlank c = false) (h : parse? text = some raw) :
    raw.IsBare := by
  obtain ⟨l, settled, hl, hsettled, built⟩ := parse?_eq_some_iff.1 h
  obtain ⟨after, tokens, hafter, htokens, finished⟩ := parse?_eq_some_iff.1 hwhole
  rw [cut, Lexer.run_append, hl, Option.bind_some] at hafter
  rcases Lexer.settle?_cases hsettled with rfl | ⟨token, rfl, bare⟩
  · -- The rest has a token, which the finished document does not take.
    obtain ⟨added, rfl⟩ :=
      (Lexer.grows_of_run hafter).tokens.trans (Lexer.suffix_of_settle? htokens)
    have more := Lexer.lt_begun_of_run solid hafter
    rw [← Lexer.length_of_settle? htokens, List.length_append] at more
    rw [List.reverse_append, RawBuilder.run_append, built, Option.bind_some] at finished
    cases hadded : added.reverse with
    | nil =>
      rw [List.reverse_eq_nil_iff.1 hadded] at more
      simp at more
    | cons token rest =>
      rw [hadded] at finished
      contradiction
  · rw [List.reverse_cons, RawBuilder.run_append] at built
    obtain ⟨b, -, hb⟩ := Option.bind_eq_some_iff.1 built
    rw [RawBuilder.run] at hb
    split at hb
    · contradiction
    · next last hlast =>
      cases hb
      exact RawBuilder.isBare_of_feed bare hlast

end RawJson

namespace Json

theorem exists_memberChars_eq (members : List (String × Json)) :
    ∃ front, memberChars members = front ++ ['\x7d'] := by
  induction members with
  | nil => exact ⟨[], rfl⟩
  | cons member members ih =>
    obtain ⟨name, value⟩ := member
    obtain ⟨front, hfront⟩ := ih
    refine ⟨',' :: (jsonString name ++ ':' :: (value.chars ++ front)), ?_⟩
    rw [memberChars, hfront]
    simp

/-- The text of an object ends with its brace. -/
theorem exists_chars_object_eq (members : List (String × Json)) :
    ∃ front, (Json.object members).chars = front ++ ['\x7d'] := by
  cases members with
  | nil => exact ⟨['\x7b'], rfl⟩
  | cons member members =>
    obtain ⟨name, value⟩ := member
    obtain ⟨front, hfront⟩ := exists_memberChars_eq members
    refine ⟨'\x7b' :: (jsonString name ++ ':' :: (value.chars ++ front)), ?_⟩
    rw [chars, hfront]
    simp

/-- What is left of the text of an object that is cut off is no array and no object. -/
theorem isBare_of_cut_object {members : List (String × Json)} (legible : (object members).Legible)
    {text : String} {back : List Char} (filled : back ≠ [])
    (cut : (object members).compact.toList = text.toList ++ back) {raw : RawJson}
    (h : RawJson.parse? text = some raw) : raw.IsBare := by
  refine RawJson.isBare_of_cut (parse?_compact legible) cut ⟨'\x7d', ?_, rfl⟩ h
  obtain ⟨front, hfront⟩ := exists_chars_object_eq members
  rw [compact, String.toList_ofList, hfront] at cut
  have last : back.getLast? = some '\x7d' := by
    rw [← List.getLast?_append_of_ne_nil text.toList filled, ← cut, List.getLast?_concat]
  exact List.mem_of_getLast? last

end Json

end CampusQuery
