import CampusQuery.Number.Binary

/-!
Scaled decimals: a coefficient of at most 96 bits and at most 28 decimal places. Means are taken in
them, so that decimal fractions add up without binary drift.
-/

namespace CampusQuery

-- Powers are those of natural numbers, not those of a monoid.
attribute [local instance (high)] instPowNat

/-- The number `coefficient` / 10^`places`. -/
structure Decimal where
  coefficient : Int
  places : Nat
  deriving DecidableEq

namespace Decimal

/-- Coefficients stay below this in size. -/
def capacity : Nat := 2 ^ (96 : Nat)

def maxPlaces : Nat := 28

/-- What an addition or a division may return. -/
def Fits (d : Decimal) : Prop :=
  d.coefficient.natAbs < capacity ∧ d.places ≤ maxPlaces

instance (d : Decimal) : Decidable d.Fits :=
  inferInstanceAs (Decidable (_ ∧ _))

def zero : Decimal := ⟨0, 0⟩

def ofParts (negative : Bool) (magnitude places : Nat) : Decimal :=
  ⟨if negative then -Int.ofNat magnitude else Int.ofNat magnitude, places⟩

/-- Halves `count` times: by dropping a factor of two and a place, by a further place, or, where the
coefficient has no room, by losing its last bit. -/
def halve : (count coefficient places : Nat) → Nat × Nat
  | 0, coefficient, places => (coefficient, places)
  | count + 1, coefficient, places =>
    if coefficient % 2 ≠ 0 ∧ coefficient * 5 < capacity then
      halve count (coefficient * 5) places
    else halve count (coefficient / 2) (places - 1)

/-- Rounds to the last place that a decimal can have; a value below it vanishes. -/
def limitPlaces (coefficient : Nat) : (places : Nat) → Nat × Nat
  | 0 => (coefficient, 0)
  | places + 1 =>
    if places < maxPlaces then (coefficient, places + 1)
    else if coefficient / 10 = 0 then (0, 0)
    else limitPlaces (roundDiv .up coefficient 10) places

/-- Rounds digits away that are finer than a double's precision. -/
def limitDigits (coefficient : Nat) : (places : Nat) → Nat × Nat
  | 0 => (coefficient, 0)
  | places + 1 =>
    if coefficient < 2 ^ (52 : Nat) then (coefficient, places + 1)
    else limitDigits (roundDiv .up coefficient 10) places

/-- Drops zeros at the end of the fraction. -/
def stripZeros (coefficient : Nat) : (places : Nat) → Nat × Nat
  | 0 => (coefficient, 0)
  | places + 1 =>
    if coefficient % 10 = 0 then stripZeros (coefficient / 10) places
    else (coefficient, places + 1)

/-- The decimal of a finite double below the capacity. One below 10^-31 would vanish in
`limitPlaces`. -/
def ofDouble? (x : Float) : Option Decimal :=
  match BinaryValue.ofFloat x with
  | .finite negative significand (.ofNat shift) =>
    let coefficient := significand * 2 ^ shift
    if coefficient < capacity then some (ofParts negative coefficient 0) else none
  | .finite negative significand (.negSucc shift) =>
    if significand * 10 ^ (31 : Nat) < 2 ^ (shift + 1) then some zero
    else
      let (coefficient, places) := halve (shift + 1) significand (shift + 1)
      let (coefficient, places) := limitPlaces coefficient places
      let (coefficient, places) := limitDigits coefficient places
      let (coefficient, places) := stripZeros coefficient places
      some (ofParts negative coefficient places)
  | _ => none

/-- Gives up as few places as it takes to fit; a half goes to the even neighbour. -/
def fit? (negative : Bool) (magnitude places : Nat) : Option Decimal :=
  (List.range (places + 1)).findSome? fun dropped =>
    let coefficient := roundDiv .even magnitude (10 ^ dropped)
    if coefficient < capacity then some (ofParts negative coefficient (places - dropped)) else none

/-- A zero leaves the other number and its places as they are. -/
def add? (a b : Decimal) : Option Decimal :=
  if a.coefficient = 0 then some b
  else if b.coefficient = 0 then some a
  else
    let places := max a.places b.places
    let total := a.coefficient * 10 ^ (places - a.places) + b.coefficient * 10 ^ (places - b.places)
    fit? (total < 0) total.natAbs places

/-- Drops that many zeros at the end of the fraction, if there are so many. -/
def dropZeros (count coefficient places : Nat) : Nat × Nat :=
  if count ≤ places ∧ coefficient % 10 ^ count = 0 then
    (coefficient / 10 ^ count, places - count)
  else (coefficient, places)

/-- Drops zeros at the end of the fraction eight at a time, while the low 32 bits are clear. -/
def dropEights (coefficient : Nat) : (places : Nat) → Nat × Nat
  | places + 8 =>
    if coefficient % 2 ^ (32 : Nat) = 0 ∧ coefficient % 10 ^ (8 : Nat) = 0 then
      dropEights (coefficient / 10 ^ (8 : Nat)) places
    else (coefficient, places + 8)
  | places => (coefficient, places)

/-- Drops up to seven zeros at the end of the fraction, by four, two and one. Of more than seven,
some may stay: a whole number and a half can keep two places. -/
def tidy (coefficient places : Nat) : Nat × Nat :=
  let (coefficient, places) := dropEights coefficient places
  let (coefficient, places) := dropZeros 4 coefficient places
  let (coefficient, places) := dropZeros 2 coefficient places
  dropZeros 1 coefficient places

/-- An exact quotient keeps the places it has. Any other takes nine at a time until it is exact, or
else as many as fit. -/
def divNat? (d : Decimal) (n : Nat) : Option Decimal :=
  let magnitude := d.coefficient.natAbs
  let negative : Bool := d.coefficient < 0
  let quotient (extra : Nat) : Nat := roundDiv .even (magnitude * 10 ^ extra) n
  if magnitude = 0 then some zero
  else if magnitude % n = 0 then some (ofParts negative (magnitude / n) d.places)
  else do
    let most ← (List.range (maxPlaces - d.places + 1)).reverse.find? (quotient · < capacity)
    let exact := [9, 18, 27].find? fun extra => extra ≤ most ∧ magnitude * 10 ^ extra % n = 0
    let extra := exact.getD most
    let (coefficient, places) := tidy (quotient extra) (d.places + extra)
    return ofParts negative coefficient places

/-- Rounds to two places; a half goes away from zero. -/
def toCents (d : Decimal) : Decimal :=
  if d.coefficient = 0 then ⟨0, 2⟩
  else if d.places ≤ 2 then d
  else ofParts (d.coefficient < 0) (roundDiv .up d.coefficient.natAbs (10 ^ (d.places - 2))) 2

/-- The double of a decimal: the whole part and the fraction are converted apart, and their sum is
rounded back to the decimal's places. -/
def toDouble (d : Decimal) : Float :=
  if d.places = 0 then doubleOfInt d.coefficient
  else
    let magnitude := d.coefficient.natAbs
    let unit := 10 ^ d.places
    let whole := nearestDouble false (magnitude / unit) 1
    let scale := nearestDouble false unit 1
    let fraction := nearestDouble false (magnitude % unit) 1 / scale
    let value :=
      if magnitude % unit = 0 then whole else roundDouble ((whole + fraction) * scale) / scale
    if d.coefficient < 0 then -value else value

def sum? (ds : List Decimal) : Option Decimal :=
  ds.foldlM add? zero

/-- The mean to two places, unless there is none or it grows too large on the way. -/
def mean? (ds : List Decimal) : Option Decimal :=
  if ds.isEmpty then none
  else do
    let total ← sum? ds
    let quotient ← total.divNat? ds.length
    return quotient.toCents

end Decimal

/-- The decimal mean of doubles, to two places. -/
def decimalMean? (xs : List Float) : Option Float := do
  let ds ← xs.mapM Decimal.ofDouble?
  let mean ← Decimal.mean? ds
  return mean.toDouble

end CampusQuery
