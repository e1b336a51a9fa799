import CampusQuery.Number.Rounding

/-!
Binary doubles as exact numbers: what a double stands for, and the double nearest to a quotient.
-/

namespace CampusQuery

-- Powers are those of natural numbers, not those of a monoid.
attribute [local instance (high)] instPowNat

/-- A finite double is ±`significand` · 2^`exponent`. -/
inductive BinaryValue where
  | nan
  | infinite (negative : Bool)
  | finite (negative : Bool) (significand : Nat) (exponent : Int)
  deriving DecidableEq

/-- The bits of a double without its sign. -/
def magnitudeBits (x : Float) : Nat :=
  x.toBits.toNat % 2 ^ (63 : Nat)

/-- A zero and a NaN have a sign too. -/
def signBit (x : Float) : Bool :=
  x.toBits.toNat / 2 ^ (63 : Nat) = 1

def BinaryValue.ofFloat (x : Float) : BinaryValue :=
  let bits := magnitudeBits x
  let field := bits / 2 ^ (52 : Nat)
  let fraction := bits % 2 ^ (52 : Nat)
  if field = 2047 then
    if fraction = 0 then .infinite (signBit x) else .nan
  else if field = 0 then .finite (signBit x) fraction (-1074)
  else .finite (signBit x) (2 ^ (52 : Nat) + fraction) (Int.ofNat field - 1075)

/-- Neither infinite nor NaN. -/
def IsFinite (x : Float) : Prop :=
  magnitudeBits x < 2047 * 2 ^ (52 : Nat)

instance (x : Float) : Decidable (IsFinite x) :=
  inferInstanceAs (Decidable (_ < _))

/-- Multiplies a quotient by 2^`shift`. -/
def scaleByTwo (shift : Int) (num den : Nat) : Nat × Nat :=
  match shift with
  | .ofNat n => (num * 2 ^ n, den)
  | .negSucc n => (num, den * 2 ^ (n + 1))

/-- Multiplies a quotient by 10^`shift`. -/
def scaleByTen (shift : Int) (num den : Nat) : Nat × Nat :=
  match shift with
  | .ofNat n => (num * 10 ^ n, den)
  | .negSucc n => (num, den * 10 ^ (n + 1))

/-- The exponent at which `num / den` has a significand of 53 bits, or the least exponent. -/
def unitExponent (num den : Nat) : Int :=
  let guess : Int := Int.ofNat num.log2 - Int.ofNat den.log2 - 52
  let (top, bottom) := scaleByTwo (-guess) num den
  max (-1074) (if top < bottom * 2 ^ (52 : Nat) then guess - 1 else guess)

/-- The bits of the positive double nearest to `num / den`; a half goes to the even neighbour, and
what is too large for a finite double is infinite. -/
def nearestBits (num den : Nat) : Nat :=
  if num = 0 then 0
  else
    let exponent := unitExponent num den
    let (top, bottom) := scaleByTwo (-exponent) num den
    min (roundDiv .even top bottom + (exponent + 1074).toNat * 2 ^ (52 : Nat))
      (2047 * 2 ^ (52 : Nat))

/-- The double with the given sign and bits. -/
def ofMagnitude (negative : Bool) (bits : Nat) : Float :=
  Float.ofBits (UInt64.ofNat (bits + if negative then 2 ^ (63 : Nat) else 0))

/-- The double nearest to ±`num / den`. -/
def nearestDouble (negative : Bool) (num den : Nat) : Float :=
  ofMagnitude negative (nearestBits num den)

/-- The double nearest to a whole number. -/
def doubleOfInt (n : Int) : Float :=
  nearestDouble (n < 0) n.natAbs 1

/-- The exact value of a double without a fraction. -/
def wholeValue? (x : Float) : Option Int :=
  match BinaryValue.ofFloat x with
  | .finite negative significand exponent =>
    let (num, den) := scaleByTwo exponent significand 1
    if num % den = 0 then
      some (if negative then -Int.ofNat (num / den) else Int.ofNat (num / den))
    else none
  | _ => none

/-- The nearest whole number as a double; a half goes away from zero. -/
def roundDouble (x : Float) : Float :=
  match BinaryValue.ofFloat x with
  | .finite negative significand exponent =>
    let (num, den) := scaleByTwo exponent significand 1
    nearestDouble negative (roundDiv .up num den) 1
  | _ => x

end CampusQuery
