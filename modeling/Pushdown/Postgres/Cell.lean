import Pushdown.Failure
import Pushdown.Json.Reader
import Pushdown.Postgres.Money
import Pushdown.Time.Reader

/-!
# Cells of a Postgres row

Rows arrive as text, with a number for the type of each column. A type that has a value of its own
is read; every other cell is kept as text. Dates and times that no instant is kept for, and numbers
in a notation of another country, are kept as text too.
-/

namespace Pushdown.Postgres

open Number Text

/-- The type of a column by its number in the catalog. -/
inductive CellType where
  | bool
  | bytes
  | int (bits : Nat)
  | json
  | single
  | double
  | number
  | date
  | timestamp
  | zonedTimestamp
  | text
  deriving DecidableEq, Repr

/-- The type of a number in the catalog. -/
def CellType.ofOid : Nat → CellType
  | 16 => .bool
  | 17 => .bytes
  | 20 => .int 64
  | 21 => .int 16
  | 23 => .int 32
  | 114 => .json
  | 700 => .single
  | 701 => .double
  | 790 => .number
  | 1082 => .date
  | 1114 => .timestamp
  | 1184 => .zonedTimestamp
  | 1700 => .number
  | 3802 => .json
  | _ => .text

/-- The instant that was read, or else the text. -/
def instantOrText (text : String) (i : Except Time.ReadError Time.Instant) : Value :=
  match i with
  | .ok i => .timestamp i
  | .error _ => .string text

/-- The value of a date or time cell. -/
def temporalOrText (type : CellType) (text : String) : Value :=
  match type with
  | .zonedTimestamp => instantOrText text (Time.readZoned text.toList)
  | .timestamp => instantOrText text (Time.readTimestamp text.toList)
  | .date => instantOrText text (Time.readDay text.toList)
  | _ => .string text

/-- Reads a truth value: one letter. -/
def readBoolean (text : String) : Except CellError Bool :=
  match text with
  | "t" => .ok true
  | "f" => .ok false
  | _ => .error (.notBoolean text)

/-- Reads bytes: a backslash, an x and hexadecimal digits. -/
def readBytes : List Char → Except CellError (List UInt8)
  | '\\' :: 'x' :: digits => (Hex.read digits).mapError .badBytes
  | _ => .error .noMarker

/-- Reads a whole number of so many bits, at most 64. It is read as one of 64 bits before the range
of its type is looked at, so a bad digit is reported even behind digits that leave that range. -/
def readWhole (bits : Nat) (s : List Char) : Except IntegerError Int :=
  (readSigned 64 s).bind (narrow bits)

/-- The value of a text of a type. -/
def readText (type : CellType) (text : String) : Except CellError Value :=
  match type with
  | .bool => (readBoolean text).map .bool
  | .int bits =>
    match readWhole bits text.toList with
    | .ok n => .ok (.int (Int64.ofInt n))
    | .error e => .error (.badInteger e)
  | .single => ((Double.readSingle text.toList).mapError .badFloat).map .float
  | .double => ((Double.read text.toList).mapError .badFloat).map .float
  | .number => .ok (numberOrText text)
  | .json => ((Json.read text.toList).mapError .badDocument).map .json
  | .date | .timestamp | .zonedTimestamp => .ok (temporalOrText type text)
  | .bytes => (readBytes text.toList).map .bytes
  | .text => .ok (.string text)

/-- The value of a cell. An empty cell is null whatever its type. -/
def readCell (oid : Nat) : Option String → Except CellError Value
  | none => .ok .null
  | some text => readText (.ofOid oid) text

end Pushdown.Postgres
