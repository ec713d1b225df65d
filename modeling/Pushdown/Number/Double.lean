import Pushdown.Number.Numeral
import Pushdown.Number.Rounding

/-!
# Double precision numbers

A double is not a number, an infinity, or a finite number given by its sign, its biased exponent
and the 52 bits of its fraction; so every value of the type is a double and each is written once.
A decimal is rounded to the nearest double, ties to even, and one above the range to an infinity.
-/

namespace Pushdown.Number

/-- A number of the double precision format. -/
inductive Double where
  | notANumber
  | infinite (negative : Bool)
  | finite (negative : Bool) (exponent : Fin 2047) (fraction : BitVec 52)
  deriving DecidableEq, Repr

namespace Double

/-- Zero with a sign. -/
def zero (negative : Bool) : Double :=
  .finite negative 0 0#52

instance : Inhabited Double := ⟨zero false⟩

/-- The magnitude of a finite double from its two fields. -/
def magnitude (exponent : Fin 2047) (fraction : BitVec 52) : Binary :=
  if exponent = 0 then ⟨fraction.toNat, -1074⟩
  else ⟨twoPow 52 + fraction.toNat, exponent.val - 1075⟩

/-- The opposite number. -/
def negate : Double → Double
  | .notANumber => .notANumber
  | .infinite negative => .infinite !negative
  | .finite negative exponent fraction => .finite (!negative) exponent fraction

/-- Whether a double is a finite number. -/
def isFinite : Double → Bool
  | .finite .. => true
  | _ => false

/-- Equality of numbers: not a number differs from itself, and the two zeros are equal. -/
def numEq : Double → Double → Bool
  | .notANumber, _ => false
  | _, .notANumber => false
  | x, y => x = y || (isZero x && isZero y)
where
  isZero : Double → Bool
    | .finite _ exponent fraction => exponent = 0 && fraction = 0#52
    | _ => false

/-- The double of a sign and of a magnitude rounded to 53 bits, infinite above the range. -/
def ofBinary (negative : Bool) (b : Binary) : Double :=
  if b.significand < twoPow 52 then .finite negative 0 (BitVec.ofNat 52 b.significand)
  else
    -- a significand that was rounded up to 2 ^ 53 is the next power of two
    let carry := b.significand = twoPow 53
    let exponent := (b.exponent + 1075).toNat + if carry then 1 else 0
    let fraction := if carry then 0 else b.significand - twoPow 52
    if h : exponent < 2047 then .finite negative ⟨exponent, h⟩ (BitVec.ofNat 52 fraction)
    else .infinite negative

/-- The nearest double to a quotient. -/
def ofQuotient (negative : Bool) (num den : Nat) : Double :=
  ofBinary negative (Binary.ofQuotient 53 (-1074) num den)

/-- The nearest double to a quotient that is first rounded to single precision. -/
def ofSingleQuotient (negative : Bool) (num den : Nat) : Double :=
  let b := Binary.ofQuotient 24 (-149) num den
  if twoPow 128 * b.den ≤ b.num then .infinite negative else ofQuotient negative b.num b.den

/-- Rounds a decimal by `round`. Decimals far outside the range of every format are settled by
their number of digits, so a huge scale is never multiplied out. -/
def ofDecimalBy (round : Bool → Nat → Nat → Double) (d : Decimal) : Double :=
  if d.coefficient = 0 then zero d.negative
  else
    let top := (digits d.coefficient).length + d.scale
    if 310 < top then .infinite d.negative
    else if top < -330 then zero d.negative
    else
      let (num, den) := decimalQuotient d.coefficient d.scale
      round d.negative num den

/-- The nearest double to a decimal. -/
def ofDecimal : Decimal → Double :=
  ofDecimalBy ofQuotient

/-- The double that a float literal names, its decimal rounded by `round`. -/
def ofLiteralBy (round : Bool → Nat → Nat → Double) : FloatLiteral → Double
  | .decimal d => ofDecimalBy round d
  | .infinity negative => .infinite negative
  | .notANumber => .notANumber

/-- Reads a float literal as the nearest double. -/
def ofText? (s : List Char) : Option Double :=
  (readLiteral s).map (ofLiteralBy ofQuotient)

/-- Reads a float literal with the reason why a text is none. -/
def read (s : List Char) : Except FloatError Double :=
  match ofText? s with
  | some x => .ok x
  | none => .error (if s.isEmpty then .empty else .invalid)

/-- Reads a float literal as the nearest number of single precision, itself a double. -/
def readSingle (s : List Char) : Except FloatError Double :=
  match readLiteral s with
  | some literal => .ok (ofLiteralBy ofSingleQuotient literal)
  | none => .error (if s.isEmpty then .empty else .invalid)

end Double

end Pushdown.Number
