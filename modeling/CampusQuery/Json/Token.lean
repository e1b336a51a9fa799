import CampusQuery.Json.Literal

/-!
Tokens of JSON text. The lexer reads one character at a time, so what it does on a text is settled
by what it does on the parts.
-/

namespace CampusQuery

/-- A string is none if an escape in it names no character. -/
inductive JsonToken where
  | openArray
  | closeArray
  | openObject
  | closeObject
  | comma
  | colon
  | null
  | bool (value : Bool)
  | number (literal : NumberLiteral)
  | string (text : Option String)
  deriving DecidableEq

/-- A string that is being read. -/
structure OpenString where
  /-- The characters so far, the last one first. -/
  reversed : List Char
  /-- Every escape so far names a character. -/
  sound : Bool
  /-- The first half of a pair of escapes. -/
  half : Option Nat
  deriving DecidableEq

namespace OpenString

def start : OpenString := ⟨[], true, none⟩

/-- A half without its partner names no character. -/
def push (s : OpenString) (c : Char) : OpenString :=
  ⟨c :: s.reversed, s.sound && s.half.isNone, none⟩

/-- Takes in an escaped 16-bit unit. -/
def pushUnit (s : OpenString) (unit : Nat) : OpenString :=
  match s.half with
  | some first =>
    if 0xDC00 ≤ unit ∧ unit < 0xE000 then
      let code := 0x10000 + (first - 0xD800) * 0x400 + (unit - 0xDC00)
      ⟨Char.ofNat code :: s.reversed, s.sound, none⟩
    else { s with sound := false }
  | none =>
    if 0xD800 ≤ unit ∧ unit < 0xDC00 then { s with half := some unit }
    else if 0xDC00 ≤ unit ∧ unit < 0xE000 then { s with sound := false }
    else ⟨Char.ofNat unit :: s.reversed, s.sound, none⟩

def close (s : OpenString) : JsonToken :=
  .string (if s.sound && s.half.isNone then some (String.ofList s.reversed.reverse) else none)

end OpenString

/-- Where the lexer stands. Letters and characters of a token are kept last one first. -/
inductive LexerMode where
  | between
  | word (letters : List Char)
  | number (chars : List Char)
  | string (s : OpenString)
  | escape (s : OpenString)
  | unit (s : OpenString) (digitsLeft value : Nat)
  deriving DecidableEq

/-- The tokens so far are kept last one first. -/
structure Lexer where
  mode : LexerMode
  tokens : List JsonToken
  deriving DecidableEq

namespace Lexer

def start : Lexer := ⟨.between, []⟩

def isJsonBlank (c : Char) : Bool :=
  c = ' ' || c = '\t' || c = '\n' || c = '\r'

def isNumberChar (c : Char) : Bool :=
  c.isDigit || c = '-' || c = '+' || c = '.' || c = 'e' || c = 'E'

def word? (letters : List Char) : Option JsonToken :=
  if letters = ['n', 'u', 'l', 'l'] then some .null
  else if letters = ['t', 'r', 'u', 'e'] then some (.bool true)
  else if letters = ['f', 'a', 'l', 's', 'e'] then some (.bool false)
  else none

def hexDigit? (c : Char) : Option Nat :=
  if c.isDigit then some (c.toNat - '0'.toNat)
  else if 'a' ≤ c ∧ c ≤ 'f' then some (c.toNat - 'a'.toNat + 10)
  else if 'A' ≤ c ∧ c ≤ 'F' then some (c.toNat - 'A'.toNat + 10)
  else none

/-- The character of an escape of one letter. -/
def simpleEscape? (c : Char) : Option Char :=
  if c = '"' ∨ c = '\\' ∨ c = '/' then some c
  else if c = 'b' then some '\x08'
  else if c = 'f' then some '\x0c'
  else if c = 'n' then some '\n'
  else if c = 'r' then some '\r'
  else if c = 't' then some '\t'
  else none

/-- Reads a character that does not continue a token. -/
def feedBetween (tokens : List JsonToken) (c : Char) : Option Lexer :=
  if isJsonBlank c then some ⟨.between, tokens⟩
  else if c = '[' then some ⟨.between, .openArray :: tokens⟩
  else if c = ']' then some ⟨.between, .closeArray :: tokens⟩
  else if c = '\x7b' then some ⟨.between, .openObject :: tokens⟩
  else if c = '\x7d' then some ⟨.between, .closeObject :: tokens⟩
  else if c = ',' then some ⟨.between, .comma :: tokens⟩
  else if c = ':' then some ⟨.between, .colon :: tokens⟩
  else if c = '"' then some ⟨.string .start, tokens⟩
  else if c = '-' ∨ c.isDigit then some ⟨.number [c], tokens⟩
  else if c.isLower then some ⟨.word [c], tokens⟩
  else none

/-- Ends a word or a number; a string must have been closed. -/
def settle? (l : Lexer) : Option (List JsonToken) :=
  match l.mode with
  | .between => some l.tokens
  | .word letters => (word? letters.reverse).map (· :: l.tokens)
  | .number chars => (NumberLiteral.parse? chars.reverse).map fun n => .number n :: l.tokens
  | _ => none

/-- Reads a character. -/
def feed (l : Lexer) (c : Char) : Option Lexer :=
  match l.mode with
  | .between => feedBetween l.tokens c
  | .word letters =>
    if c.isLower then some ⟨.word (c :: letters), l.tokens⟩
    else l.settle?.bind (feedBetween · c)
  | .number chars =>
    if isNumberChar c then some ⟨.number (c :: chars), l.tokens⟩
    else l.settle?.bind (feedBetween · c)
  | .string s =>
    if c = '"' then some ⟨.between, s.close :: l.tokens⟩
    else if c = '\\' then some ⟨.escape s, l.tokens⟩
    else if c.toNat < 0x20 then none
    else some ⟨.string (s.push c), l.tokens⟩
  | .escape s =>
    if c = 'u' then some ⟨.unit s 4 0, l.tokens⟩
    else (simpleEscape? c).map fun escaped => ⟨.string (s.push escaped), l.tokens⟩
  | .unit s digitsLeft value =>
    (hexDigit? c).map fun digit =>
      if digitsLeft ≤ 1 then ⟨.string (s.pushUnit (16 * value + digit)), l.tokens⟩
      else ⟨.unit s (digitsLeft - 1) (16 * value + digit), l.tokens⟩

def run (l : Lexer) : List Char → Option Lexer
  | [] => some l
  | c :: cs =>
    match l.feed c with
    | none => none
    | some next => next.run cs

theorem run_append (l : Lexer) (as bs : List Char) :
    l.run (as ++ bs) = (l.run as).bind (·.run bs) := by
  induction as generalizing l with
  | nil => rfl
  | cons c cs ih =>
    simp only [List.cons_append, run]
    cases l.feed c with
    | none => rfl
    | some next => exact ih next

end Lexer

/-- The tokens of a text. -/
def JsonToken.ofChars? (cs : List Char) : Option (List JsonToken) :=
  (Lexer.start.run cs).bind fun l => l.settle?.map List.reverse

end CampusQuery
