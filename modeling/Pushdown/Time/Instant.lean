import Pushdown.Number.Numeral
import Pushdown.Time.Calendar

/-!
# Instants

An instant is a number of seconds since the start of 1970 in universal time and a number of
nanoseconds. Nanoseconds from one thousand million on stand for a leap second, the second 60 of
its minute. Instants are written as in RFC 3339: four digits of the year between 0 and 9999, and a
sign and at least four digits outside.
-/

namespace Pushdown.Time

open Number

/-- An instant in universal time. -/
structure Instant where
  seconds : Int
  nanoseconds : Nat
  deriving DecidableEq, Repr

/-- The seconds of a day. -/
def daySeconds : Int := 86400

/-- The nanoseconds of a second. -/
def secondNanoseconds : Nat := 1000000000

/-- A time of day. The second 60 is a leap second. -/
structure Clock where
  hour : Nat
  minute : Nat
  second : Nat
  deriving DecidableEq, Repr

namespace Instant

/-- The instant of a date and a time of day at an offset from universal time in seconds. -/
def ofCivil (d : Date) (t : Clock) (nanoseconds : Nat) (offset : Int) : Instant :=
  let second := min t.second 59
  { seconds := d.number * daySeconds + (3600 * t.hour + 60 * t.minute + second : Nat) - offset
    nanoseconds := if t.second = 60 then nanoseconds + secondNanoseconds else nanoseconds }

/-- The date of an instant. -/
def date (i : Instant) : Date :=
  Date.ofNumber (i.seconds / daySeconds)

/-- The time of day of an instant. -/
def clock (i : Instant) : Clock :=
  let n := (i.seconds % daySeconds).toNat
  let leap := secondNanoseconds ≤ i.nanoseconds
  ⟨n / 3600, n / 60 % 60, n % 60 + if leap then 1 else 0⟩

/-- The year of a date: four digits, or a sign and at least four digits. -/
def writeYear (year : Int) : List Char :=
  if 0 ≤ year && year ≤ 9999 then padded 4 year.toNat
  else (if year < 0 then '-' else '+') :: padded 4 year.natAbs

/-- A date with dashes. -/
def writeDate (d : Date) : List Char :=
  writeYear d.year ++ '-' :: padded 2 d.month ++ '-' :: padded 2 d.day

/-- A time of day with colons. -/
def writeClock (t : Clock) : List Char :=
  padded 2 t.hour ++ ':' :: padded 2 t.minute ++ ':' :: padded 2 t.second

/-- A fraction of a second in the least of 0, 3, 6 and 9 digits that loses nothing. -/
def writeFraction (nanoseconds : Nat) : List Char :=
  if nanoseconds = 0 then []
  else if nanoseconds % 1000000 = 0 then '.' :: padded 3 (nanoseconds / 1000000)
  else if nanoseconds % 1000 = 0 then '.' :: padded 6 (nanoseconds / 1000)
  else '.' :: padded 9 nanoseconds

/-- The written form, of which the fraction is given. -/
def writeWith (fraction : List Char) (i : Instant) : List Char :=
  writeDate i.date ++ 'T' :: writeClock i.clock ++ fraction ++ ['Z']

/-- The written form in whole seconds. -/
def writeSeconds (i : Instant) : List Char :=
  writeWith [] i

/-- The written form with as many digits of a second as are needed. -/
def write (i : Instant) : List Char :=
  writeWith (writeFraction (i.nanoseconds % secondNanoseconds)) i

end Instant

end Pushdown.Time
