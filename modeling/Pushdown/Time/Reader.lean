import Pushdown.Text.Blank
import Pushdown.Time.Instant

/-!
# Reading dates and times

Two notations are read. The loose one allows white space before every number and, in the year,
one to four digits or a sign and any number of digits. The strict one is RFC 3339. A reader takes
what it reads from the front of a text and gives back the rest.
-/

namespace Pushdown.Time

open Number Text

/-- Why a text is no date. -/
inductive ReadError where
  | invalid
  | tooShort
  | outOfRange
  | trailing
  deriving DecidableEq, Repr

/-- The wording of a reading error. -/
def ReadError.message : ReadError → String
  | .invalid => "input contains invalid characters"
  | .tooShort => "premature end of input"
  | .outOfRange => "input is out of range"
  | .trailing => "trailing input"

/-- Reads a character. -/
def readMark (mark : Char) : List Char → Except ReadError (List Char)
  | [] => .error .tooShort
  | c :: rest => if c = mark then .ok rest else .error .invalid

/-- Reads a number of at least `least` and at most `most` digits. -/
def readDigits (least most : Nat) (s : List Char) : Except ReadError (Nat × List Char) :=
  let ds := (s.take most).takeWhile Char.isDigit
  if ds.length < least then .error (if s.length < least then .tooShort else .invalid)
  else .ok (ofDigits ds, s.drop ds.length)

/-- Reads a number of at most two digits that lies in a range, with white space before it. -/
def readField (low high : Nat) (s : List Char) : Except ReadError (Nat × List Char) := do
  let (n, rest) ← readDigits 1 2 (trimStart s)
  if low ≤ n && n ≤ high then return (n, rest) else .error .outOfRange

/-- Years that fit into 32 bits. -/
def checkedYear (year : Int) : Except ReadError Int :=
  if -(twoPow 31 : Int) ≤ year && year < twoPow 31 then .ok year else .error .outOfRange

/-- Reads a year: one to four digits, or a sign and any number of digits. -/
def readYear (s : List Char) : Except ReadError (Int × List Char) := do
  match trimStart s with
  | '-' :: rest =>
    let (n, rest) ← readDigits 1 rest.length rest
    return (← checkedYear (-(n : Int)), rest)
  | '+' :: rest =>
    let (n, rest) ← readDigits 1 rest.length rest
    return (← checkedYear n, rest)
  | rest =>
    let (n, rest) ← readDigits 1 4 rest
    return (← checkedYear n, rest)

/-- Reads a date in the loose notation. Whether the calendar has it is not looked at yet. -/
def readDate (s : List Char) : Except ReadError (Date × List Char) := do
  let (year, s) ← readYear s
  let s ← readMark '-' s
  let (month, s) ← readField 1 12 s
  let s ← readMark '-' s
  let (day, s) ← readField 1 31 s
  return (⟨year, month, day⟩, s)

/-- Reads a time of day in the loose notation. -/
def readClock (s : List Char) : Except ReadError (Clock × List Char) := do
  let (hour, s) ← readField 0 23 s
  let s ← readMark ':' s
  let (minute, s) ← readField 0 59 s
  let s ← readMark ':' s
  let (second, s) ← readField 0 60 s
  return (⟨hour, minute, second⟩, s)

/-- The nanoseconds of the digits behind a point. Digits past the ninth are dropped. -/
def nanosecondsOf (ds : List Char) : Nat :=
  let ds := ds.take 9
  ofDigits ds * tenPow (9 - ds.length)

/-- Reads a point and digits as nanoseconds, if there is a point. -/
def readFraction : List Char → Except ReadError (Nat × List Char)
  | '.' :: rest =>
    let ds := rest.takeWhile Char.isDigit
    if ds.isEmpty then .error (if rest.isEmpty then .tooShort else .invalid)
    else .ok (nanosecondsOf ds, rest.dropWhile Char.isDigit)
  | rest => .ok (0, rest)

/-- Reads a sign: a plus, a hyphen or the minus sign of mathematics. -/
def readSign : List Char → Except ReadError (Bool × List Char)
  | [] => .error .tooShort
  | c :: rest =>
    if c = '+' then .ok (false, rest)
    else if c = '-' || c = '\u2212' then .ok (true, rest)
    else .error .invalid

/-- An offset in seconds with its sign. -/
def offsetOf (negative : Bool) (hours minutes : Nat) : Int :=
  let seconds : Int := 3600 * hours + 60 * minutes
  if negative then -seconds else seconds

/-- Reads the two digits of minutes below sixty. -/
def readMinutes (s : List Char) : Except ReadError (Nat × List Char) := do
  let (minutes, rest) ← readDigits 2 2 s
  if minutes < 60 then return (minutes, rest) else .error .outOfRange

/-- Reads an offset in the loose notation: a letter Z, or a sign, two digits of hours, colons and
white space, and two digits of minutes, which may be missing at the end of the text. -/
def readOffset (s : List Char) : Except ReadError (Int × List Char) := do
  match trimStart s with
  | 'Z' :: rest => return (0, rest)
  | 'z' :: rest => return (0, rest)
  | s =>
    let (negative, s) ← readSign s
    let (hours, s) ← readDigits 2 2 s
    let s := s.dropWhile fun c => c == ':' || isBlank c
    let (minutes, s) ← if s.isEmpty then pure (0, s) else readMinutes s
    return (offsetOf negative hours minutes, s)

/-- Reads an offset of RFC 3339. -/
def readStrictOffset (s : List Char) : Except ReadError (Int × List Char) := do
  match s with
  | 'Z' :: rest => return (0, rest)
  | 'z' :: rest => return (0, rest)
  | s =>
    let (negative, s) ← readSign s
    let (hours, s) ← readDigits 2 2 s
    let s ← readMark ':' s
    let (minutes, s) ← readMinutes s
    return (offsetOf negative hours minutes, s)

/-- Refuses what follows a text that has been read. -/
def readEnd : List Char → Except ReadError Unit
  | [] => .ok ()
  | _ => .error .trailing

/-- Refuses dates that the calendar does not have and years that no instants are kept for. -/
def checkedDate (d : Date) : Except ReadError Unit :=
  if d.exists && firstYear ≤ d.year && d.year ≤ lastYear then .ok () else .error .outOfRange

/-- The instant of a civil time at an offset of less than a day, if instants are kept for its
year. -/
def instantAt (d : Date) (t : Clock) (nanoseconds : Nat) (offset : Int) :
    Except ReadError Instant := do
  checkedDate d
  let i := Instant.ofCivil d t nanoseconds offset
  let year := i.date.year
  if offset.natAbs < 86400 && firstYear ≤ year && year ≤ lastYear then return i
  else .error .outOfRange

/-! ## The loose notation -/

/-- Midnight of a day. -/
def midnight : Clock := ⟨0, 0, 0⟩

/-- Reads a text that is a date, as its midnight in universal time. -/
def readDay (s : List Char) : Except ReadError Instant := do
  let (d, s) ← readDate s
  readEnd s
  instantAt d midnight 0 0

/-- Reads a date, white space and a time of day with a fraction. -/
def readDateTime (s : List Char) : Except ReadError ((Date × Clock × Nat) × List Char) := do
  let (d, s) ← readDate s
  let (t, s) ← readClock s
  let (nanoseconds, s) ← readFraction s
  return ((d, t, nanoseconds), s)

/-- Reads a text that is a date and a time of day in universal time. -/
def readTimestamp (s : List Char) : Except ReadError Instant := do
  let ((d, t, nanoseconds), s) ← readDateTime s
  readEnd s
  instantAt d t nanoseconds 0

/-- Reads a text that is a date, a time of day and an offset. -/
def readZoned (s : List Char) : Except ReadError Instant := do
  let ((d, t, nanoseconds), s) ← readDateTime s
  let (offset, s) ← readOffset s
  readEnd s
  instantAt d t nanoseconds offset

/-! ## RFC 3339 -/

/-- Reads a number of exactly so many digits in a range. -/
def readExactly (width low high : Nat) (s : List Char) : Except ReadError (Nat × List Char) := do
  let (n, rest) ← readDigits width width s
  if low ≤ n && n ≤ high then return (n, rest) else .error .outOfRange

/-- Reads what stands between a date and a time of day. -/
def readSeparator : List Char → Except ReadError (List Char)
  | [] => .error .tooShort
  | c :: rest => if c = 'T' || c = 't' || c = ' ' then .ok rest else .error .invalid

/-- Reads a text that is a date and time of RFC 3339. -/
def readStrict (s : List Char) : Except ReadError Instant := do
  let (year, s) ← readExactly 4 0 9999 s
  let s ← readMark '-' s
  let (month, s) ← readExactly 2 1 12 s
  let s ← readMark '-' s
  let (day, s) ← readExactly 2 1 31 s
  let s ← readSeparator s
  let (hour, s) ← readExactly 2 0 23 s
  let s ← readMark ':' s
  let (minute, s) ← readExactly 2 0 59 s
  let s ← readMark ':' s
  let (second, s) ← readExactly 2 0 60 s
  let (nanoseconds, s) ← readFraction s
  let (offset, s) ← readStrictOffset s
  readEnd s
  instantAt ⟨year, month, day⟩ ⟨hour, minute, second⟩ nanoseconds offset

end Pushdown.Time
