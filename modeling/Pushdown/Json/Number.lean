import Pushdown.Json.Basic

/-!
# Reading JSON numbers

A whole number in the range of 64-bit words, signed or unsigned, is kept; minus zero and every
other number is a double. The double is not always the nearest one: as many digits as fit into
64 bits are taken as a whole number, that is rounded to a double, and one rounded product or
quotient with a power of ten follows. A number above the range of doubles is an error.
-/

namespace Pushdown.Json

open Number

/-- What is wrong with a text that is no document: it ends too early, or it breaks the grammar. -/
inductive ReadError where
  | unexpectedEnd
  | malformed
  deriving DecidableEq, Repr

/-- The wording of a reading error. -/
def ReadError.message : ReadError → String
  | .unexpectedEnd => "<json eof>"
  | .malformed => "<json syntax>"

/-- The greatest number of an unsigned 64-bit word. -/
def greatestWord : Nat := twoPow 64 - 1

/-- The leading digits that fit into a word, and how many digits follow them. -/
def wholeDigits (ds : List Char) : Nat × Nat :=
  ds.foldl (fun (n, dropped) d =>
    let next := 10 * n + digitValue d
    if dropped = 0 && next ≤ greatestWord then (next, 0) else (n, dropped + 1)) (0, 0)

/-- A word with the digits behind the point that still fit, and how many those are. -/
def fractionDigits (n taken : Nat) : List Char → Nat × Nat
  | [] => (n, taken)
  | d :: rest =>
    let next := 10 * n + digitValue d
    if next ≤ greatestWord then fractionDigits next (taken + 1) rest else (n, taken)

/-- A quotient rounded to the 53 bits of a double. -/
def rounded (num den : Nat) : Binary :=
  Binary.ofQuotient 53 (-1074) num den

/-- A rounded number divided by a rounded power of ten. -/
def dividedByPower (x : Binary) (power : Nat) : Binary :=
  let p := rounded (tenPow power) 1
  rounded (x.num * p.den) (x.den * p.num)

/-- The double of a word times a power of ten, if there is one. A divisor above `10 ^ 308` is
divided by in two steps. -/
def scaled (negative : Bool) (word : Nat) (scale : Int) : Except ReadError Double :=
  if word = 0 then .ok (.zero negative)
  else
    let x := rounded word 1
    if 308 < scale then .error .malformed
    else if 0 ≤ scale then
      let p := rounded (tenPow scale.toNat) 1
      let product := Double.ofQuotient negative (x.num * p.num) (x.den * p.den)
      if product.isFinite then .ok product else .error .malformed
    else if -308 ≤ scale then .ok (.ofBinary negative (dividedByPower x (-scale).toNat))
    else if -616 ≤ scale then
      .ok (.ofBinary negative (dividedByPower (dividedByPower x 308) (-scale - 308).toNat))
    else .ok (.zero negative)

/-- The number of an integer part, a fraction if there is one, and an exponent if there is one. -/
def ofParts (negative : Bool) (whole : List Char) (fraction : Option (List Char))
    (exponent : Option Int) : Except ReadError Json :=
  let n := ofDigits whole
  match fraction, exponent with
  | none, none =>
    if !negative && n ≤ greatestWord then .ok (.int n)
    else if negative && 0 < n && n ≤ twoPow 63 then .ok (.int (-n))
    else
      let (word, dropped) := wholeDigits whole
      (scaled negative word dropped).map .double
  | _, _ =>
    let (word, dropped) := wholeDigits whole
    let (word, taken) := fractionDigits word 0 (fraction.getD [])
    (scaled negative word (dropped - taken + exponent.getD 0)).map .double

/-- Digits, of which there is at least one, and what follows them. -/
def someDigits (s : List Char) : Except ReadError (List Char × List Char) :=
  match s with
  | [] => .error .unexpectedEnd
  | c :: _ =>
    if c.isDigit then .ok (s.takeWhile Char.isDigit, s.dropWhile Char.isDigit)
    else .error .malformed

/-- The digits of an integer part. A zero stands alone. -/
def integerPart (s : List Char) : Except ReadError (List Char × List Char) :=
  match s with
  | '0' :: c :: rest => if c.isDigit then .error .malformed else .ok (['0'], c :: rest)
  | _ => someDigits s

/-- A point and digits, if there is a point. -/
def fractionPart : List Char → Except ReadError (Option (List Char) × List Char)
  | '.' :: rest => (someDigits rest).map fun (ds, rest) => (some ds, rest)
  | rest => .ok (none, rest)

/-- A signed exponent, if there is one. -/
def exponentPart : List Char → Except ReadError (Option Int × List Char)
  | 'e' :: rest => exponent rest
  | 'E' :: rest => exponent rest
  | rest => .ok (none, rest)
where
  exponent : List Char → Except ReadError (Option Int × List Char)
    | '-' :: rest => (someDigits rest).map fun (ds, rest) => (some (-(ofDigits ds : Int)), rest)
    | '+' :: rest => (someDigits rest).map fun (ds, rest) => (some (ofDigits ds : Int), rest)
    | rest => (someDigits rest).map fun (ds, rest) => (some (ofDigits ds : Int), rest)

/-- Reads a number behind its minus sign, if it has one. -/
def readNumber (negative : Bool) (s : List Char) : Except ReadError (Json × List Char) := do
  let (whole, s) ← integerPart s
  let (fraction, s) ← fractionPart s
  let (exponent, s) ← exponentPart s
  let number ← ofParts negative whole fraction exponent
  return (number, s)

end Pushdown.Json
