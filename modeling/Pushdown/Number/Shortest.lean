import Pushdown.Number.Double

/-!
# The fewest digits that read back

Of the decimals that round to a given double, the one with the fewest digits is chosen, of those
the nearest to the double, and on a tie the one that the format's rule says. The decimals that
round to a double form an interval around it, the ends included if its significand is even. A grid
of decimals has a point in the interval just if one of the double's two neighbours on the grid
lies in it.
-/

namespace Pushdown.Number

/-- Which of two equally near decimals is taken. -/
inductive Tie where
  | up
  | toEven
  deriving DecidableEq, Repr

/-- The interval of the numbers that round to a double, over a common denominator. -/
structure Neighbourhood where
  value : Nat
  low : Nat
  high : Nat
  den : Nat
  /-- whether the ends belong to the interval -/
  closed : Bool
  deriving Repr

/-- The interval around a positive magnitude. Below a power of two the neighbour is half as far. -/
def Neighbourhood.ofBinary (b : Binary) : Neighbourhood :=
  let narrow := b.significand = twoPow 52 && b.exponent ≠ -1074
  let unit := twoPow (b.exponent - 2).toNat
  { value := 4 * b.significand * unit
    low := (4 * b.significand - if narrow then 1 else 2) * unit
    high := (4 * b.significand + 2) * unit
    den := twoPow (2 - b.exponent).toNat
    closed := b.significand % 2 = 0 }

/-- Whether the decimal `n · 10 ^ scale` lies in the interval. -/
def Neighbourhood.holds (i : Neighbourhood) (n : Nat) (scale : Int) : Bool :=
  let point := n * tenPow scale.toNat * i.den
  let grid := tenPow (-scale).toNat
  if i.closed then i.low * grid ≤ point && point ≤ i.high * grid
  else i.low * grid < point && point < i.high * grid

/-- The exponent of the leading digit of a positive quotient. -/
def leadingExponent (num den : Nat) : Int :=
  if den ≤ num then (digits (num / den)).length - 1
  else -((digits ((den + num - 1) / num - 1)).length : Int)

/-- The better of the two neighbours on a grid, if one lies in the interval. -/
def Neighbourhood.onGrid? (tie : Tie) (i : Neighbourhood) (scale : Int) : Option Nat :=
  let num := i.value * tenPow (-scale).toNat
  let den := i.den * tenPow scale.toNat
  let below := num / den
  let rest := 2 * (num % den)
  match i.holds below scale, i.holds (below + 1) scale with
  | false, false => none
  | true, false => some below
  | false, true => some (below + 1)
  | true, true =>
    if rest < den then some below
    else if den < rest then some (below + 1)
    else
      match tie with
      | .up => some (below + 1)
      | .toEven => some (if below % 2 = 0 then below else below + 1)

/-- The first grid with a hit, from the scale of the leading digit downwards. -/
def Neighbourhood.firstHit (tie : Tie) (i : Neighbourhood) (scale : Int) : Nat → Nat × Int
  | 0 => (i.value * tenPow (-scale).toNat / (i.den * tenPow scale.toNat), scale)
  | fuel + 1 =>
    match i.onGrid? tie scale with
    | some n => (n, scale)
    | none => i.firstHit tie (scale - 1) fuel

/-- A decimal without the zeros at the end of its coefficient. -/
def stripZeros (scale : Int) (ds : List Char) : List Char × Int :=
  let zeros := (ds.reverse.takeWhile (· == '0')).length
  (ds.take (ds.length - zeros), scale + zeros)

/-- The digits and the scale of the shortest decimal that reads back as a positive magnitude.
Seventeen digits always do. -/
def shortest (tie : Tie) (b : Binary) : List Char × Int :=
  let i := Neighbourhood.ofBinary b
  let (n, scale) := i.firstHit tie (leadingExponent i.value i.den) 17
  stripZeros scale (digits n)

end Pushdown.Number
