import CampusQuery.Json.Printer
import CampusQuery.Json.Token

/-!
Tokens of written JSON text. Main statement: the text of a document in which every number is one
literal is cut into the tokens of the document.
-/

namespace CampusQuery

namespace NumberLiteral

/-- A literal is made of the characters that the lexer takes up into a number. -/
def AllNumberChars (cs : List Char) : Prop :=
  ∀ c ∈ cs, Lexer.isNumberChar c = true

theorem isNumberChar_of_isDigit {c : Char} (h : c.isDigit = true) :
    Lexer.isNumberChar c = true := by
  simp [Lexer.isNumberChar, h]

theorem AllNumberChars.cons {c : Char} {cs : List Char} (hc : Lexer.isNumberChar c = true)
    (hcs : AllNumberChars cs) : AllNumberChars (c :: cs) :=
  List.forall_mem_cons.2 ⟨hc, hcs⟩

theorem allNumberChars_of_unsigned? {negative : Bool} {digits : List Char} {e : Int}
    (h : exponent?.unsigned? negative digits = some e) : AllNumberChars digits := by
  unfold exponent?.unsigned? at h
  split at h
  · next hall => exact fun c hc => isNumberChar_of_isDigit (List.all_eq_true.1 hall.2 c hc)
  · contradiction

theorem allNumberChars_of_exponent? {cs : List Char} {e : Int} (h : exponent? cs = some e) :
    AllNumberChars cs := by
  unfold exponent? at h
  split at h
  · contradiction
  · exact .cons rfl (allNumberChars_of_unsigned? h)
  · exact .cons rfl (allNumberChars_of_unsigned? h)
  · exact allNumberChars_of_unsigned? h

theorem allNumberChars_of_power {c : Char} {power : List Char} {α : Type} {f : Int → α} {l : α}
    (h : (if c = 'e' ∨ c = 'E' then (exponent? power).map f else none) = some l) :
    AllNumberChars (c :: power) := by
  split at h
  · next hc =>
    obtain ⟨e, he, -⟩ := Option.map_eq_some_iff.1 h
    refine .cons ?_ (allNumberChars_of_exponent? he)
    rcases hc with rfl | rfl <;> rfl
  · contradiction

theorem allNumberChars_of_afterWhole? {negative : Bool} {whole rest : List Char}
    {l : NumberLiteral} (h : afterWhole? negative whole rest = some l) : AllNumberChars rest := by
  unfold afterWhole? at h
  split at h
  · simp [AllNumberChars]
  · next rest =>
    refine .cons rfl fun c hc => ?_
    rw [← List.takeWhile_append_dropWhile (p := Char.isDigit) (l := rest)] at hc
    rcases List.mem_append.1 hc with hc | hc
    · exact isNumberChar_of_isDigit (List.all_eq_true.1 List.all_takeWhile c hc)
    · simp only at h
      split at h
      · contradiction
      · split at h
        · next hdropped => simp [hdropped] at hc
        · next d power hdropped =>
          rw [hdropped] at hc
          exact allNumberChars_of_power h c hc
  · exact allNumberChars_of_power h

/-- A literal begins with a sign or a digit and has nothing but number characters. -/
theorem allNumberChars_of_parse? {cs : List Char} {l : NumberLiteral} (h : parse? cs = some l) :
    AllNumberChars cs ∧ ∃ c rest, cs = c :: rest ∧ (c = '-' ∨ c.isDigit = true) := by
  have unsigned : ∀ {negative : Bool} {cs : List Char}, parse?.unsigned? negative cs = some l →
      AllNumberChars cs ∧ ∃ c rest, cs = c :: rest ∧ c.isDigit = true := by
    intro negative cs h
    simp only [parse?.unsigned?] at h
    split at h
    · next hwhole =>
      constructor
      · intro c hc
        rw [← List.takeWhile_append_dropWhile (p := Char.isDigit) (l := cs)] at hc
        rcases List.mem_append.1 hc with hc | hc
        · exact isNumberChar_of_isDigit (List.all_eq_true.1 List.all_takeWhile c hc)
        · exact allNumberChars_of_afterWhole? h c hc
      · cases cs with
        | nil => contradiction
        | cons c rest =>
          refine ⟨c, rest, rfl, ?_⟩
          cases hc : c.isDigit with
          | true => rfl
          | false => simp [hc, isWhole] at hwhole
    · contradiction
  unfold parse? at h
  split at h
  · next rest => exact ⟨.cons rfl (unsigned h).1, _, rest, rfl, .inl rfl⟩
  · obtain ⟨hall, c, rest, rfl, hc⟩ := unsigned h
    exact ⟨hall, c, rest, rfl, .inr hc⟩

end NumberLiteral

namespace Lexer

variable (tokens : List JsonToken)

section Strings

theorem hexDigit?_digitChar : ∀ d < 16, hexDigit? (Nat.digitChar d) = some d := by
  decide

/-- A character of a string is read back from its escape or from itself. -/
theorem run_jsonChar (cs : List Char) (c : Char) :
    run ⟨.string ⟨cs, true, none⟩, tokens⟩ (jsonChar c) =
      some ⟨.string ⟨c :: cs, true, none⟩, tokens⟩ := by
  unfold jsonChar
  split
  · subst_vars; rfl
  split
  · subst_vars; rfl
  split
  · subst_vars; rfl
  split
  · subst_vars; rfl
  split
  · subst_vars; rfl
  split
  · subst_vars; rfl
  split
  · subst_vars; rfl
  split
  · next hcontrol =>
    have high := hexDigit?_digitChar (c.toNat / 16) (by omega)
    have low := hexDigit?_digitChar (c.toNat % 16) (by omega)
    have hzero : hexDigit? '0' = some 0 := rfl
    have hcode : 16 * (c.toNat / 16) + c.toNat % 16 = c.toNat := by omega
    have hlow : ¬(0xD800 ≤ c.toNat ∧ c.toNat < 0xDC00) := by omega
    have hhigh : ¬(0xDC00 ≤ c.toNat ∧ c.toNat < 0xE000) := by omega
    simp [run, feed, controlCode, hzero, high, low, hcode, OpenString.pushUnit, hlow, hhigh]
  · next hquote hslash _ _ _ _ _ hcontrol =>
    simp [run, feed, hquote, hslash, hcontrol, OpenString.push]

theorem run_string (cs s : List Char) :
    run ⟨.string ⟨cs, true, none⟩, tokens⟩ (s.flatMap jsonChar) =
      some ⟨.string ⟨s.reverse ++ cs, true, none⟩, tokens⟩ := by
  induction s generalizing cs with
  | nil => rfl
  | cons c s ih =>
    rw [List.flatMap_cons, run_append, run_jsonChar, Option.bind_some, ih]
    simp

theorem run_jsonString (s : String) :
    run ⟨.between, tokens⟩ (jsonString s) = some ⟨.between, .string (some s) :: tokens⟩ := by
  have opened : feed ⟨.between, tokens⟩ '"' = some ⟨.string .start, tokens⟩ := rfl
  rw [jsonString, List.cons_append, run, opened]
  simp only [OpenString.start]
  rw [run_append, run_string]
  simp [run, feed, OpenString.close]

end Strings

/-- The lexer has these tokens once it is at the end or sees what can follow a value. -/
structure Settles (l : Lexer) : Prop where
  settle : l.settle? = some tokens
  feed : ∀ c ∈ [',', ']', '\x7d'], l.feed c = feedBetween tokens c

theorem settles_between : Settles tokens ⟨.between, tokens⟩ :=
  ⟨rfl, fun _ _ => rfl⟩

section Atoms

/-- A word or a number that is complete. -/
theorem settles_number {cs : List Char} {l : NumberLiteral} (h : NumberLiteral.parse? cs = some l) :
    Settles (.number l :: tokens) ⟨.number cs.reverse, tokens⟩ := by
  have settled : settle? ⟨.number cs.reverse, tokens⟩ = some (.number l :: tokens) := by
    simp [settle?, h]
  refine ⟨settled, fun c hc => ?_⟩
  simp only [List.mem_cons, List.not_mem_nil, or_false] at hc
  rcases hc with rfl | rfl | rfl <;> simp [Lexer.feed, isNumberChar, settled]

theorem settles_word {letters : List Char} {token : JsonToken} (h : word? letters = some token) :
    Settles (token :: tokens) ⟨.word letters.reverse, tokens⟩ := by
  have settled : settle? ⟨.word letters.reverse, tokens⟩ = some (token :: tokens) := by
    simp [settle?, h]
  refine ⟨settled, fun c hc => ?_⟩
  simp only [List.mem_cons, List.not_mem_nil, or_false] at hc
  rcases hc with rfl | rfl | rfl <;> simp [Lexer.feed, settled]

theorem run_word (letters : List Char) (token : JsonToken) (h : word? letters = some token) :
    ∃ after, run ⟨.between, tokens⟩ letters = some after ∧ Settles (token :: tokens) after := by
  refine ⟨⟨.word letters.reverse, tokens⟩, ?_, settles_word tokens h⟩
  unfold word? at h
  split at h
  · subst_vars; rfl
  split at h
  · subst_vars; rfl
  split at h
  · subst_vars; rfl
  · contradiction

theorem run_numberChars {cs : List Char} (h : NumberLiteral.AllNumberChars cs)
    (before : List Char) :
    run ⟨.number before, tokens⟩ cs = some ⟨.number (cs.reverse ++ before), tokens⟩ := by
  induction cs generalizing before with
  | nil => rfl
  | cons c cs ih =>
    have hc := h c List.mem_cons_self
    have later := ih (fun d hd => h d (List.mem_cons_of_mem c hd)) (c :: before)
    simp only [run, feed, hc, if_true, later]
    simp

theorem feedBetween_number {c : Char} (h : c = '-' ∨ c.isDigit = true) :
    feedBetween tokens c = some ⟨.number [c], tokens⟩ := by
  have apart : ∀ d, d ≠ '-' → d.isDigit = false → c ≠ d := by
    rintro d hd hdigit rfl
    simp [hd, hdigit] at h
  unfold feedBetween isJsonBlank
  simp [apart ' ', apart '\t', apart '\n', apart '\r', apart '[', apart ']', apart '\x7b',
    apart '\x7d', apart ',', apart ':', apart '"', h]

theorem run_number {cs : List Char} {l : NumberLiteral} (h : NumberLiteral.parse? cs = some l) :
    ∃ after, run ⟨.between, tokens⟩ cs = some after ∧ Settles (.number l :: tokens) after := by
  obtain ⟨hall, c, rest, rfl, hc⟩ := NumberLiteral.allNumberChars_of_parse? h
  refine ⟨_, ?_, settles_number tokens h⟩
  have opened : feed ⟨.between, tokens⟩ c = some ⟨.number [c], tokens⟩ :=
    feedBetween_number tokens hc
  rw [run, opened]
  simp only [run_numberChars tokens fun d hd => hall d (List.mem_cons_of_mem c hd)]
  simp

end Atoms

end Lexer

/-- The literal that is written for a number. -/
def JsonNumber.literal (n : JsonNumber) : NumberLiteral :=
  (NumberLiteral.parse? n.chars).getD ⟨false, [], [], 0, true⟩

namespace Json

mutual

/-- Every number is written as one literal. -/
def Legible : Json → Prop
  | .number n => (NumberLiteral.parse? n.chars).isSome
  | .array items => LegibleItems items
  | .object members => LegibleMembers members
  | _ => True

def LegibleItems : List Json → Prop
  | [] => True
  | item :: rest => Legible item ∧ LegibleItems rest

def LegibleMembers : List (String × Json) → Prop
  | [] => True
  | (_, value) :: rest => Legible value ∧ LegibleMembers rest

end

mutual

def tokens : Json → List JsonToken
  | .null => [.null]
  | .bool b => [.bool b]
  | .number n => [.number n.literal]
  | .string s => [.string (some s)]
  | .array [] => [.openArray, .closeArray]
  | .array (item :: rest) => .openArray :: (tokens item ++ itemTokens rest)
  | .object [] => [.openObject, .closeObject]
  | .object ((name, value) :: rest) =>
    .openObject :: .string (some name) :: .colon :: (tokens value ++ memberTokens rest)

/-- The tokens after the first item of an array. -/
def itemTokens : List Json → List JsonToken
  | [] => [.closeArray]
  | item :: rest => .comma :: (tokens item ++ itemTokens rest)

/-- The tokens after the first member of an object. -/
def memberTokens : List (String × Json) → List JsonToken
  | [] => [.closeObject]
  | (name, value) :: rest =>
    .comma :: .string (some name) :: .colon :: (tokens value ++ memberTokens rest)

end

open Lexer

theorem run_cons {l after : Lexer} {before : List JsonToken} (hl : Settles before l) {c : Char}
    (hc : c ∈ [',', ']', '\x7d']) (hafter : feedBetween before c = some after) (rest : List Char) :
    run l (c :: rest) = run after rest := by
  rw [run, hl.feed c hc, hafter]

theorem run_name (tokens : List JsonToken) (name : String) (rest : List Char) :
    run ⟨.between, tokens⟩ (jsonString name ++ ':' :: rest) =
      run ⟨.between, .colon :: .string (some name) :: tokens⟩ rest := by
  rw [run_append, run_jsonString]
  rfl

mutual

/-- The text of a document is cut into its tokens. The last of them may need a further character to
be complete, so the lexer is only known to settle to them. -/
theorem run_chars : ∀ (json : Json), json.Legible → ∀ tokens, ∃ l,
    run ⟨.between, tokens⟩ json.chars = some l ∧ Settles (json.tokens.reverse ++ tokens) l
  | .null, _, tokens => run_word tokens ['n', 'u', 'l', 'l'] .null rfl
  | .bool true, _, tokens => run_word tokens ['t', 'r', 'u', 'e'] (.bool true) rfl
  | .bool false, _, tokens => run_word tokens ['f', 'a', 'l', 's', 'e'] (.bool false) rfl
  | .number n, h, tokens => by
    obtain ⟨literal, hliteral⟩ := Option.isSome_iff_exists.1 h
    have hread := run_number tokens hliteral
    rw [Json.tokens, JsonNumber.literal, hliteral, Option.getD_some]
    exact hread
  | .string s, _, tokens => ⟨_, run_jsonString tokens s, settles_between _⟩
  | .array [], _, tokens => ⟨_, rfl, settles_between _⟩
  | .array (item :: rest), h, tokens => by
    obtain ⟨l, hitem, hl⟩ := run_chars item h.1 (.openArray :: tokens)
    refine ⟨_, ?_, settles_between _⟩
    have opened : feed ⟨.between, tokens⟩ '[' = some ⟨.between, .openArray :: tokens⟩ := rfl
    rw [chars, run, opened]
    simp only
    rw [run_append, hitem, Option.bind_some, run_itemChars rest h.2 _ l hl]
    simp [Json.tokens]
  | .object [], _, tokens => ⟨_, rfl, settles_between _⟩
  | .object ((name, value) :: rest), h, tokens => by
    obtain ⟨l, hvalue, hl⟩ :=
      run_chars value h.1 (.colon :: .string (some name) :: .openObject :: tokens)
    refine ⟨_, ?_, settles_between _⟩
    have opened : feed ⟨.between, tokens⟩ '\x7b' = some ⟨.between, .openObject :: tokens⟩ := rfl
    rw [chars, run, opened]
    simp only
    rw [run_name, run_append, hvalue, Option.bind_some, run_memberChars rest h.2 _ l hl]
    simp [Json.tokens]

theorem run_itemChars : ∀ (items : List Json), LegibleItems items → ∀ tokens l, Settles tokens l →
    run l (itemChars items) = some ⟨.between, (itemTokens items).reverse ++ tokens⟩
  | [], _, tokens, l, hl => run_cons hl (by simp) rfl []
  | item :: rest, h, tokens, l, hl => by
    obtain ⟨next, hitem, hnext⟩ := run_chars item h.1 (.comma :: tokens)
    rw [itemChars, run_cons hl (by simp) rfl, run_append, hitem, Option.bind_some,
      run_itemChars rest h.2 _ next hnext]
    simp [itemTokens]

theorem run_memberChars : ∀ (members : List (String × Json)), LegibleMembers members →
    ∀ tokens l, Settles tokens l →
      run l (memberChars members) = some ⟨.between, (memberTokens members).reverse ++ tokens⟩
  | [], _, tokens, l, hl => run_cons hl (by simp) rfl []
  | (name, value) :: rest, h, tokens, l, hl => by
    obtain ⟨next, hvalue, hnext⟩ :=
      run_chars value h.1 (.colon :: .string (some name) :: .comma :: tokens)
    rw [memberChars, run_cons hl (by simp) rfl, run_name, run_append, hvalue, Option.bind_some,
      run_memberChars rest h.2 _ next hnext]
    simp [memberTokens]

end

/-- The written text has the tokens of the document. -/
theorem ofChars?_chars {json : Json} (h : json.Legible) :
    JsonToken.ofChars? json.chars = some json.tokens := by
  obtain ⟨l, hrun, hl⟩ := run_chars json h []
  rw [JsonToken.ofChars?, Lexer.start, hrun, Option.bind_some, hl.settle]
  simp

end Json

end CampusQuery
