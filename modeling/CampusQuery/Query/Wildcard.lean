import CampusQuery.Text.Quoted

/-!
Wildcard patterns: a literal, with a star before it, after it or both. A pattern is compiled to a
regular expression that is anchored at both ends.
-/

namespace CampusQuery

/-- A part of a compiled pattern. -/
inductive PatternPiece where
  | anyText
  | char (c : Char)
  deriving DecidableEq

structure Wildcard where
  raw : String
  pieces : List PatternPiece
  deriving DecidableEq

/-- A star is neither the first nor the last character. -/
structure PatternError where
  raw : String
  deriving DecidableEq

def PatternError.message (e : PatternError) : String :=
  "Invalid pattern '" ++ e.raw ++ "': '*' is only allowed at the start or end"

namespace Wildcard

def ofParts (raw : String) (leading : Bool) (literal : List Char) (trailing : Bool) : Wildcard :=
  ⟨raw, (if leading then [.anyText] else []) ++ literal.map .char ++
    (if trailing then [.anyText] else [])⟩

/-- A single star counts as a leading one. -/
def compile (raw : String) : Except PatternError Wildcard :=
  let cs := raw.toList
  if '*' ∈ (cs.drop 1).dropLast then .error ⟨raw⟩
  else
    let leading := cs.head? == some '*'
    let rest := if leading then cs.drop 1 else cs
    let trailing := rest.getLast? == some '*'
    .ok (ofParts raw leading (if trailing then rest.dropLast else rest) trailing)

/-- Some tail of the text, itself included, passes. -/
def anyTail (p : List Char → Bool) : List Char → Bool
  | [] => p []
  | c :: cs => p (c :: cs) || anyTail p cs

/-- The pieces take up the whole text. -/
def matchPieces : List PatternPiece → List Char → Bool
  | [], cs => cs.isEmpty
  | .anyText :: pieces, cs => anyTail (matchPieces pieces) cs
  | .char c :: pieces, cs =>
    match cs with
    | [] => false
    | d :: rest => c == d && matchPieces pieces rest

def isMatch (w : Wildcard) (text : String) : Bool :=
  matchPieces w.pieces text.toList

/-- The characters that a regular expression reads as operators. -/
def isOperator (c : Char) : Bool :=
  c ∈ ['\\', '.', '+', '*', '?', '(', ')', '|', '[', ']', '\x7b', '\x7d', '^', '$', '#', '&', '-',
    '~']

def pieceChars : PatternPiece → List Char
  | .anyText => ['(', '?', 's', ':', '.', '*', ')']
  | .char c => if isOperator c then ['\\', c] else [c]

/-- The regular expression. -/
def regex (w : Wildcard) : String :=
  String.ofList ('^' :: w.pieces.flatMap pieceChars ++ ['$'])

/-- The pattern in a message. -/
def describe (w : Wildcard) : String :=
  "WildcardPattern \x7b raw: " ++ quoted w.raw ++ ", regex: Regex(" ++ quoted w.regex ++ ") \x7d"

end Wildcard

end CampusQuery
