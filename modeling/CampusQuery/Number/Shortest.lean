import CampusQuery.Number.Binary

/-!
Shortest decimal text of a double: the fewest digits that read back, and of those the nearest.
-/

namespace CampusQuery

-- Powers are those of natural numbers, not those of a monoid.
attribute [local instance (high)] instPowNat

/-- The decimal `coefficient` · 10^`exponent`. -/
structure DecimalText where
  coefficient : Nat
  exponent : Int
  deriving DecidableEq

namespace DecimalText

/-- Moves zeros at the end of the coefficient into the exponent. -/
def stripZeros (fuel : Nat) (d : DecimalText) : DecimalText :=
  match fuel with
  | 0 => d
  | fuel + 1 =>
    if d.coefficient ≠ 0 ∧ d.coefficient % 10 = 0 then
      stripZeros fuel ⟨d.coefficient / 10, d.exponent + 1⟩
    else d

/-- The bits of the double that this decimal denotes. -/
def bits (d : DecimalText) : Nat :=
  let (num, den) := scaleByTen d.exponent d.coefficient 1
  nearestBits num den

end DecimalText

/-- The largest `p` with 10^`p` ≤ `num / den`, for a positive quotient. -/
def decimalExponent (num den : Nat) : Int :=
  if den ≤ num then Int.ofNat (digitCount (num / den)) - 1
  else -Int.ofNat (digitCount ((den - 1) / num))

/-- The neighbours of `num / den` among the multiples of 10^`exponent`, the nearer one first. -/
def decimalNeighbours (tie : Tie) (num den : Nat) (exponent : Int) : List DecimalText :=
  let (top, bottom) := scaleByTen (-exponent) num den
  let below := top / bottom
  if top % bottom = 0 then [⟨below, exponent⟩]
  else if roundDiv tie top bottom = below then [⟨below, exponent⟩, ⟨below + 1, exponent⟩]
  else [⟨below + 1, exponent⟩, ⟨below, exponent⟩]

/-- All digits of `significand` · 2^`exponent`. -/
def exactDecimal (significand : Nat) (exponent : Int) : DecimalText :=
  match exponent with
  | .ofNat n => ⟨significand * 2 ^ n, 0⟩
  | .negSucc n => ⟨significand * 5 ^ (n + 1), exponent⟩

/-- The shortest decimal that reads back as the double with these `bits`, which stands for
`significand` · 2^`exponent`. Seventeen digits always suffice. -/
def shortestDecimal (tie : Tie) (bits significand : Nat) (exponent : Int) : DecimalText :=
  let (num, den) := scaleByTwo exponent significand 1
  let leading := decimalExponent num den
  let attempt (digits : Nat) : Option DecimalText :=
    (decimalNeighbours tie num den (leading - Int.ofNat digits)).find? (·.bits = bits)
  let found := ((List.range 17).findSome? attempt).getD (exactDecimal significand exponent)
  found.stripZeros (digitCount found.coefficient)

end CampusQuery
