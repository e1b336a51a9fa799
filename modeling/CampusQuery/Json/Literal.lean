import CampusQuery.Json.Basic
import CampusQuery.Number.Binary

/-!
Number literals of JSON: their grammar, and the number that a literal is read as. A double is read
by arithmetic on doubles, so it need not be the nearest one.
-/

namespace CampusQuery

-- Powers are those of natural numbers, not those of a monoid.
attribute [local instance (high)] instPowNat

/-- The literal ±`whole`.`fraction` · 10^`exponent`. -/
structure NumberLiteral where
  negative : Bool
  /-- The digits before the point. -/
  whole : List Char
  /-- The digits after the point. -/
  fraction : List Char
  exponent : Int
  /-- Written without point and exponent. -/
  isInteger : Bool
  deriving DecidableEq

namespace NumberLiteral

/-- Digits read as a natural. -/
def natOfDigits (digits : List Char) : Nat :=
  digits.foldl (fun n c => 10 * n + (c.toNat - '0'.toNat)) 0

/-- One digit, or several that do not start with zero. -/
def isWhole : List Char → Bool
  | [] => false
  | ['0'] => true
  | c :: _ => c ≠ '0'

/-- The exponent part, up to the end. -/
def exponent? : List Char → Option Int
  | [] => none
  | '-' :: digits => unsigned? true digits
  | '+' :: digits => unsigned? false digits
  | digits => unsigned? false digits
where
  unsigned? (negative : Bool) (digits : List Char) : Option Int :=
    if digits ≠ [] ∧ digits.all Char.isDigit then
      some (if negative then -Int.ofNat (natOfDigits digits) else Int.ofNat (natOfDigits digits))
    else none

/-- The fraction and the exponent, after the whole part. -/
def afterWhole? (negative : Bool) (whole : List Char) : List Char → Option NumberLiteral
  | [] => some ⟨negative, whole, [], 0, true⟩
  | '.' :: rest =>
    let fraction := rest.takeWhile Char.isDigit
    if fraction = [] then none
    else match rest.dropWhile Char.isDigit with
      | [] => some ⟨negative, whole, fraction, 0, false⟩
      | c :: power =>
        if c = 'e' ∨ c = 'E' then
          (exponent? power).map fun exponent => ⟨negative, whole, fraction, exponent, false⟩
        else none
  | c :: power =>
    if c = 'e' ∨ c = 'E' then
      (exponent? power).map fun exponent => ⟨negative, whole, [], exponent, false⟩
    else none

/-- Reads a whole literal. -/
def parse? : List Char → Option NumberLiteral
  | '-' :: rest => unsigned? true rest
  | rest => unsigned? false rest
where
  unsigned? (negative : Bool) (cs : List Char) : Option NumberLiteral :=
    let whole := cs.takeWhile Char.isDigit
    if isWhole whole then afterWhole? negative whole (cs.dropWhile Char.isDigit) else none

/-- Takes digits up into a number below 2^64 until one does not fit; that one and those after it are
left. -/
def takeUp (n : Nat) : List Char → Nat × List Char
  | [] => (n, [])
  | c :: cs =>
    let next := 10 * n + (c.toNat - '0'.toNat)
    if next < 2 ^ (64 : Nat) then takeUp next cs else (n, c :: cs)

/-- The literal without its sign, as a number below 2^64 and a power of ten. Digits before the point
that do not fit count for the power; those after it are lost. -/
def parts (l : NumberLiteral) : Nat × Int :=
  let (whole, above) := takeUp 0 l.whole
  let (significand, lost) := takeUp whole l.fraction
  let places := l.fraction.length - lost.length
  (significand, l.exponent + Int.ofNat above.length - Int.ofNat places)

/-- The exponent of the largest power of ten among the doubles. -/
def maxPower : Nat := 308

def powerOfTen (n : Nat) : Float :=
  nearestDouble false (10 ^ n) 1

/-- Divides by the largest power so many times, as long as something is left. -/
def shrink (x : Float) : Nat → Float
  | 0 => x
  | times + 1 => if x == 0.0 then x else shrink (x / powerOfTen maxPower) times

/-- The product of a number and a power of ten in doubles: the number, the power and every result
are rounded. None beyond the finite doubles. -/
def scaled? (significand : Nat) : Int → Option Float
  | .ofNat power =>
    let x := nearestDouble false significand 1
    if maxPower < power then if x == 0.0 then some x else none
    else
      let product := x * powerOfTen power
      if IsFinite product then some product else none
  | .negSucc n =>
    let x := nearestDouble false significand 1
    some (shrink x (n / maxPower) / powerOfTen (n % maxPower + 1))

def double? (l : NumberLiteral) : Option Float :=
  let (significand, exponent) := l.parts
  (scaled? significand exponent).map fun x => if l.negative then -x else x

/-- An integer literal that fits 64 bits, signed or not, is that integer. Minus zero is a double,
and so is every other number. -/
def number? (l : NumberLiteral) : Option JsonNumber :=
  let digits := natOfDigits l.whole
  if l.isInteger ∧ !l.negative ∧ digits < 2 ^ (64 : Nat) then some (.integer (Int.ofNat digits))
  else if l.isInteger ∧ l.negative ∧ 0 < digits ∧ digits ≤ 2 ^ (63 : Nat) then
    some (.integer (-Int.ofNat digits))
  else l.double?.map .real

/-- The value of an unsigned 64-bit literal. -/
def unsigned64? (l : NumberLiteral) : Option Nat :=
  let digits := natOfDigits l.whole
  if l.isInteger ∧ !l.negative ∧ digits < 2 ^ (64 : Nat) then some digits else none

end NumberLiteral

end CampusQuery
