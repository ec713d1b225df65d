import Pushdown.Number.Power

/-!
# Numerals

Reading of whole numbers of a bounded range and of decimal literals, and writing of natural
numbers. A whole number is read from left to right, so of a bad digit and a number that leaves the
range the first to be met is reported.
-/

namespace Pushdown.Number

/-- The number a decimal digit stands for. -/
def digitValue (c : Char) : Nat :=
  c.toNat - 48

/-- The digits of a natural number. -/
def digits (n : Nat) : List Char :=
  Nat.toDigits 10 n

/-- The number that digits spell. -/
def ofDigits (s : List Char) : Nat :=
  Nat.ofDigitChars 10 s 0

/-- The digits of a number, with zeros in front up to a width. -/
def padded (width n : Nat) : List Char :=
  List.replicate (width - (digits n).length) '0' ++ digits n

/-- An integer in decimal, with a minus sign if it is below zero. -/
def ofInt (n : Int) : List Char :=
  if n < 0 then '-' :: digits n.natAbs else digits n.natAbs

@[simp] theorem ofDigits_digits (n : Nat) : ofDigits (digits n) = n :=
  Nat.ofDigitChars_toDigits (by decide) (by decide)

/-! ## Whole numbers of a range -/

/-- Why a text is no whole number of a range. -/
inductive IntegerError where
  | empty
  | invalidDigit
  | tooLarge
  | tooSmall
  deriving DecidableEq, Repr

/-- The wording of an integer error. -/
def IntegerError.message : IntegerError → String
  | .empty => "cannot parse integer from empty string"
  | .invalidDigit => "invalid digit found in string"
  | .tooLarge => "number too large to fit in target type"
  | .tooSmall => "number too small to fit in target type"

/-- Reads digits on top of the number read so far; `overflow` is the error for one above the
limit. -/
def readMagnitude (limit : Nat) (overflow : IntegerError) :
    Nat → List Char → Except IntegerError Nat
  | n, [] => .ok n
  | n, c :: rest =>
    if c.isDigit then
      let next := 10 * n + digitValue c
      if next ≤ limit then readMagnitude limit overflow next rest else .error overflow
    else .error .invalidDigit

/-- Reads an optional sign and digits as a number from `-below` to `above`. A range without
negative numbers has no minus sign. -/
def readInteger (below above : Nat) : List Char → Except IntegerError Int
  | [] => .error .empty
  | c :: rest =>
    if rest.isEmpty && (c == '+' || c == '-') then .error .invalidDigit
    else if c = '+' then (readMagnitude above .tooLarge 0 rest).map Int.ofNat
    else if c = '-' && 0 < below then (readMagnitude below .tooSmall 0 rest).map fun n => -(n : Int)
    else (readMagnitude above .tooLarge 0 (c :: rest)).map Int.ofNat

/-- Reads a signed integer of so many bits. -/
def readSigned (bits : Nat) : List Char → Except IntegerError Int :=
  readInteger (twoPow (bits - 1)) (twoPow (bits - 1) - 1)

/-- A number as one of a signed type of so many bits, in whose range it has to lie. -/
def narrow (bits : Nat) (n : Int) : Except IntegerError Int :=
  if n < -(twoPow (bits - 1) : Int) then .error .tooSmall
  else if n < twoPow (bits - 1) then .ok n
  else .error .tooLarge

/-- Reads an unsigned integer of so many bits. -/
def readUnsigned (bits : Nat) : List Char → Except IntegerError Int :=
  readInteger 0 (twoPow bits - 1)

/-! ## Decimal literals -/

/-- A decimal literal: the value is `coefficient · 10 ^ scale`, or the negative of that. -/
structure Decimal where
  negative : Bool
  coefficient : Nat
  scale : Int
  deriving DecidableEq, Repr

/-- What a float literal names. -/
inductive FloatLiteral where
  | decimal (value : Decimal)
  | infinity (negative : Bool)
  | notANumber
  deriving DecidableEq, Repr

/-- Reads the part of a literal behind its digits: nothing, or an exponent. -/
def readExponent : List Char → Option Int
  | [] => some 0
  | e :: rest =>
    if e = 'e' || e = 'E' then
      let (negative, ds) := match rest with
        | '+' :: ds => (false, ds)
        | '-' :: ds => (true, ds)
        | ds => (false, ds)
      if ds.isEmpty || !ds.all Char.isDigit then none
      else if negative then some (-(ofDigits ds : Int)) else some (ofDigits ds)
    else none

/-- Reads digits with an optional point among or beside them and an optional exponent. -/
def readDecimal (negative : Bool) (s : List Char) : Option Decimal :=
  let whole := s.takeWhile Char.isDigit
  let (fraction, rest) := match s.dropWhile Char.isDigit with
    | '.' :: rest => (rest.takeWhile Char.isDigit, rest.dropWhile Char.isDigit)
    | rest => ([], rest)
  if whole.isEmpty && fraction.isEmpty then none
  else (readExponent rest).map fun exponent =>
    ⟨negative, ofDigits (whole ++ fraction), exponent - fraction.length⟩

/-- Reads a float literal: an optional sign, then a decimal literal or, in any case of letters, one
of the words inf, infinity and nan. -/
def readLiteral (s : List Char) : Option FloatLiteral :=
  let (negative, body) := match s with
    | '+' :: rest => (false, rest)
    | '-' :: rest => (true, rest)
    | rest => (false, rest)
  let word := String.ofList (body.map Char.toLower)
  if word = "inf" || word = "infinity" then some (.infinity negative)
  else if word = "nan" then some .notANumber
  else (readDecimal negative body).map .decimal

/-- Why a text is no float. -/
inductive FloatError where
  | empty
  | invalid
  deriving DecidableEq, Repr

/-- The wording of a float error. -/
def FloatError.message : FloatError → String
  | .empty => "cannot parse float from empty string"
  | .invalid => "invalid float literal"

end Pushdown.Number
