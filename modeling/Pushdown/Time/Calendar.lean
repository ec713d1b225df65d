/-!
# The Gregorian calendar

Dates of the proleptic Gregorian calendar and their numbers, day 0 being 1 January 1970. The year
of a day is first estimated from the mean length of a year and then corrected by at most one.
-/

namespace Pushdown.Time

/-- Whether a year has 366 days. -/
def isLeap (year : Int) : Bool :=
  year % 4 = 0 && (year % 100 ≠ 0 || year % 400 = 0)

/-- The lengths of the months of a year. -/
def monthLengths (leap : Bool) : List Nat :=
  [31, if leap then 29 else 28, 31, 30, 31, 30, 31, 31, 30, 31, 30, 31]

/-- A date. The months count from 1 and so do the days of a month. -/
structure Date where
  year : Int
  month : Nat
  day : Nat
  deriving DecidableEq, Repr

/-- Whether the calendar has the date. -/
def Date.exists (d : Date) : Bool :=
  1 ≤ d.month && 1 ≤ d.day &&
    match (monthLengths (isLeap d.year))[d.month - 1]? with
    | some length => d.day ≤ length
    | none => false

/-- The number of the first day of a year. -/
def yearStart (year : Int) : Int :=
  let y := year - 1
  365 * y + y / 4 - y / 100 + y / 400 - 719162

/-- The days of some months. -/
def totalDays (lengths : List Nat) : Nat :=
  lengths.foldr (· + ·) 0

/-- The number of a date. -/
def Date.number (d : Date) : Int :=
  yearStart d.year + totalDays ((monthLengths (isLeap d.year)).take (d.month - 1)) + d.day - 1

/-- The year of a day. -/
def yearOfDay (n : Int) : Int :=
  let estimate := 400 * (n + 719162) / 146097 + 1
  if n < yearStart estimate then estimate - 1
  else if yearStart (estimate + 1) ≤ n then estimate + 1
  else estimate

/-- The month and the day of the month of a day of the year, counted from 0, when the months from
`month` on have the given lengths. -/
def monthOfDay (month : Nat) : List Nat → Nat → Nat × Nat
  | [], n => (month, n + 1)
  | length :: rest, n =>
    if n < length then (month, n + 1) else monthOfDay (month + 1) rest (n - length)

/-- The date of a day. -/
def Date.ofNumber (n : Int) : Date :=
  let year := yearOfDay n
  let (month, day) := monthOfDay 1 (monthLengths (isLeap year)) (n - yearStart year).toNat
  ⟨year, month, day⟩

/-- The first and the last year that instants are kept for. -/
def firstYear : Int := -262143

@[inherit_doc firstYear]
def lastYear : Int := 262142

end Pushdown.Time
