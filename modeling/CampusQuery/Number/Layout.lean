import CampusQuery.Number.Shortest

/-! Layouts of a number's text: when it is positional, and how an exponent is written. -/

namespace CampusQuery

/-- How the digits of a double are set out. An exponent is that of the leading digit. -/
structure NumberLayout where
  /-- Of two equally near shortest decimals. -/
  tie : Tie
  /-- Exponents that are written out with zeros. -/
  positional : Int → Bool
  /-- Whole numbers end in `.0`. -/
  marksWhole : Bool
  /-- A positive exponent carries its sign. -/
  signsExponent : Bool
  nan : String
  infinity : String
  negativeInfinity : String

namespace NumberLayout

/-- JSON has no text for a number that is not finite. -/
def json : NumberLayout where
  tie := .even
  positional exponent := -5 ≤ exponent ∧ exponent ≤ 15
  marksWhole := true
  signsExponent := true
  nan := "null"
  infinity := "null"
  negativeInfinity := "null"

/-- Every digit is written out. -/
def plain : NumberLayout where
  tie := .up
  positional _ := true
  marksWhole := false
  signsExponent := false
  nan := "NaN"
  infinity := "inf"
  negativeInfinity := "-inf"

/-- Tells a number from a whole number of another type. -/
def exact : NumberLayout where
  tie := .up
  positional exponent := -4 ≤ exponent ∧ exponent ≤ 15
  marksWhole := true
  signsExponent := false
  nan := "NaN"
  infinity := "inf"
  negativeInfinity := "-inf"

/-- A digit, and the rest after a point unless there is none. -/
def withPoint (whole : List Char) : List Char → List Char
  | [] => whole
  | fraction => whole ++ '.' :: fraction

/-- Sets out digits of which the first counts 10^`exponent`. -/
def setOut (layout : NumberLayout) (digits : List Char) (exponent : Int) : List Char :=
  if layout.positional exponent then
    match exponent with
    | .negSucc n => '0' :: '.' :: (List.replicate n '0' ++ digits)
    | .ofNat n =>
      let padded := digits ++ List.replicate (n + 1 - digits.length) '0'
      let fraction := padded.drop (n + 1)
      withPoint (padded.take (n + 1))
        (if layout.marksWhole ∧ fraction = [] then ['0'] else fraction)
  else
    let sign := if exponent < 0 then ['-'] else if layout.signsExponent then ['+'] else []
    withPoint (digits.take 1) (digits.drop 1) ++ 'e' :: (sign ++ Nat.toDigits 10 exponent.natAbs)

/-- The text of a double. -/
def chars (layout : NumberLayout) (x : Float) : List Char :=
  match BinaryValue.ofFloat x with
  | .nan => layout.nan.toList
  | .infinite false => layout.infinity.toList
  | .infinite true => layout.negativeInfinity.toList
  | .finite negative significand exponent =>
    let sign := if negative then ['-'] else []
    if significand = 0 then sign ++ layout.setOut ['0'] 0
    else
      let shortest := shortestDecimal layout.tie (magnitudeBits x) significand exponent
      let digits := Nat.toDigits 10 shortest.coefficient
      sign ++ layout.setOut digits (shortest.exponent + Int.ofNat digits.length - 1)

def render (layout : NumberLayout) (x : Float) : String :=
  String.ofList (layout.chars x)

end NumberLayout

end CampusQuery
