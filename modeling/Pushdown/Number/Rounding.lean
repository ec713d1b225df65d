import Pushdown.Number.Power

/-!
# Rounding a quotient to a binary number

A positive quotient is rounded to `significand · 2 ^ exponent` with a significand of so many bits,
to the nearer neighbour and on a tie to the even one. The exponent never falls below a least one,
where fewer bits are left. Main statement: a rounded quotient is within half a unit of the exact
one (`roundHalfEven_near`).
-/

namespace Pushdown.Number

/-- A quotient of natural numbers to the nearest whole number, a half to the even neighbour. -/
def roundHalfEven (num den : Nat) : Nat :=
  let q := num / den
  let r := num % den
  if 2 * r < den then q
  else if den < 2 * r then q + 1
  else if q % 2 = 0 then q else q + 1

/-- A rounded quotient is within half a unit of the exact one. -/
theorem roundHalfEven_near (num den : Nat) (h : 0 < den) :
    2 * num ≤ 2 * den * roundHalfEven num den + den ∧
      2 * den * roundHalfEven num den ≤ 2 * num + den := by
  have hd := Nat.div_add_mod num den
  have hm := Nat.mod_lt num h
  simp only [roundHalfEven]
  split
  · constructor <;> grind
  · split
    · constructor <;> grind
    · split <;> constructor <;> grind

/-- The greatest power of two that is at most a positive quotient, as its exponent. -/
def floorLog2 (num den : Nat) : Int :=
  let l : Int := num.log2 - den.log2
  if den * twoPow l.toNat ≤ num * twoPow (-l).toNat then l else l - 1

/-- A nonnegative binary number `significand · 2 ^ exponent`. -/
structure Binary where
  significand : Nat
  exponent : Int
  deriving DecidableEq, Repr

/-- The numerator of a binary number as a quotient. -/
def Binary.num (b : Binary) : Nat :=
  b.significand * twoPow b.exponent.toNat

/-- The denominator of a binary number as a quotient. -/
def Binary.den (b : Binary) : Nat :=
  twoPow (-b.exponent).toNat

/-- A quotient rounded to so many bits, with no exponent below the least one. -/
def Binary.ofQuotient (bits : Nat) (least : Int) (num den : Nat) : Binary :=
  let exponent := max least (floorLog2 num den - (bits - 1))
  ⟨roundHalfEven (num * twoPow (-exponent).toNat) (den * twoPow exponent.toNat), exponent⟩

/-- The numerator and the denominator of `coefficient · 10 ^ scale`. -/
def decimalQuotient (coefficient : Nat) (scale : Int) : Nat × Nat :=
  (coefficient * tenPow scale.toNat, tenPow (-scale).toNat)

end Pushdown.Number
