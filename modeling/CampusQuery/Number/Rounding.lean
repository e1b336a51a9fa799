/-! Quotients of naturals rounded to a whole number. -/

namespace CampusQuery

/-- Where a quotient goes that lies half way between two whole numbers. -/
inductive Tie where
  | even
  | up
  deriving DecidableEq

/-- The quotient `num / den` rounded to the nearest whole number. -/
def roundDiv (tie : Tie) (num den : Nat) : Nat :=
  let below := num / den
  let left := num % den
  if den < 2 * left then below + 1
  else if 2 * left < den then below
  else match tie with
    | .even => below + below % 2
    | .up => below + 1

theorem roundDiv_of_dvd (tie : Tie) {num den : Nat} (hden : 0 < den) (h : den ∣ num) :
    roundDiv tie num den = num / den := by
  have left : num % den = 0 := Nat.mod_eq_zero_of_dvd h
  simp [roundDiv, left, hden]

/-- The rounded quotient is at most half a unit away from the exact one. -/
theorem roundDiv_near (tie : Tie) (num den : Nat) (hden : 0 < den) :
    2 * (roundDiv tie num den * den) ≤ 2 * num + den ∧
      2 * num ≤ 2 * (roundDiv tie num den * den) + den := by
  have split := Nat.div_add_mod num den
  have small := Nat.mod_lt num hden
  rw [Nat.mul_comm] at split
  simp only [roundDiv]
  generalize num / den = below at *
  generalize num % den = left at *
  have step : (below + 1) * den = below * den + den := Nat.succ_mul below den
  split
  · omega
  · split
    · omega
    · cases tie with
      | up => simp only; omega
      | even =>
        rcases Nat.mod_two_eq_zero_or_one below with h | h <;> simp only [h, Nat.add_zero] <;> omega

/-- Decimal digits of a natural, at least one. -/
def digitCount (n : Nat) : Nat :=
  (Nat.toDigits 10 n).length

end CampusQuery
