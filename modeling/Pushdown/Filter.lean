import Pushdown.Json.Reader
import Pushdown.Qualifier
import Pushdown.Time.Reader
import Pushdown.VirtualTable

/-!
# Filters typed by a user

A filter is a column, an operator and a value, with white space between them where it is wanted. The
column is the longest run of name characters at the start, the operator is the longest spelling that
comes next, and the value is the rest, read as the type of the column. A value may stand between
single quotes, of which one pair is taken off.
-/

namespace Pushdown.Filter

open Number Text

/-- The spellings of the operators, each before those it starts with. -/
def spellings : List (String × Operator) :=
  [("IS NOT NULL", .isNotNull), ("IS NULL", .isNull), ("NOT ILIKE", .notCaselessLike),
    ("NOT LIKE", .notLike), ("ILIKE", .caselessLike), ("LIKE", .like), ("!~~*", .notCaselessLike),
    ("~~*", .caselessLike), ("!~~", .notLike), ("~~", .like), ("<=", .lessEqual),
    (">=", .greaterEqual), ("!=", .notEqual), ("<>", .notEqual), ("=", .equal), ("<", .less),
    (">", .greater)]

/-- What is wrong with a filter. -/
inductive Error where
  | noColumn
  | unknownColumn (table column : String)
  | noOperator (text : String)
  | refusedOperator (column : String) (op : Operator)
  | unexpectedValue (op : Operator)
  | missingValue (op : Operator)
  | notBoolean (text : String)
  | notInteger (text : String) (cause : IntegerError)
  | notNumber (text : String) (cause : FloatError)
  | notDocument (cause : Json.ReadError)
  | notTimestamp (text : String) (cause : Time.ReadError)
  | notFilterable
  deriving DecidableEq, Repr

namespace Error

/-- The wording of a filter error. -/
def message : Error → String
  | .noColumn => "expected a column name"
  | .unknownColumn table column => "table '" ++ table ++ "' has no column '" ++ column ++ "'"
  | .noOperator text => "expected an operator, found '" ++ text ++ "'"
  | .refusedOperator column op => "column '" ++ column ++ "' does not accept operator " ++ op.sql
  | .unexpectedValue op => "unexpected value after " ++ op.sql
  | .missingValue op => "missing value after " ++ op.sql
  | .notBoolean text => "expected a boolean, found '" ++ text ++ "'"
  | .notInteger text _ => "expected an integer, found '" ++ text ++ "'"
  | .notNumber text _ => "expected a number, found '" ++ text ++ "'"
  | .notDocument _ => "expected a JSON document"
  | .notTimestamp text _ => "expected an RFC 3339 timestamp or a date, found '" ++ text ++ "'"
  | .notFilterable => "column type cannot be filtered"

/-- The wording of what is behind a filter error. -/
def cause? : Error → Option String
  | .notInteger _ cause => some cause.message
  | .notNumber _ cause => some cause.message
  | .notDocument cause => some cause.message
  | .notTimestamp _ cause => some cause.message
  | _ => none

end Error

/-- What follows a spelling, in any case of letters, at the start of a text. -/
def afterSpelling? : List Char → List Char → Option (List Char)
  | [], s => some s
  | _ :: _, [] => none
  | c :: spelling, d :: s => if c = d.toUpper then afterSpelling? spelling s else none

/-- What follows an operator at the start of a text. An operator that is a word ends where a word
ends. -/
def afterOperator? (spelling : List Char) (s : List Char) : Option (List Char) :=
  match afterSpelling? spelling s with
  | none => none
  | some rest =>
    if (spelling.headD ' ').isAlpha && isWordChar (rest.headD ' ') then none else some rest

/-- Splits a text into the first of the given operators that it starts with and the value behind. -/
def firstOperator? (s : List Char) : List (String × Operator) → Option (Operator × List Char)
  | [] => none
  | (spelling, op) :: rest =>
    match afterOperator? spelling.toList s with
    | some value => some (op, trim value)
    | none => firstOperator? s rest

/-- Splits a text into an operator and the value behind it. -/
def splitOperator (s : List Char) : Except Error (Operator × List Char) :=
  match firstOperator? s spellings with
  | some split => .ok split
  | none => .error (.noOperator (String.ofList s))

/-- A text without the single quotes around it, if it stands between a pair. -/
def unquote (s : List Char) : List Char :=
  match s with
  | '\'' :: rest => if rest.getLast? = some '\'' then rest.dropLast else s
  | _ => s

/-- Reads a truth value in any case of letters. -/
def boolean? (s : List Char) : Option Bool :=
  match String.ofList (lower s) with
  | "true" | "t" => some true
  | "false" | "f" => some false
  | _ => none

/-- Reads an instant, or a date as its midnight. -/
def readInstant (s : List Char) : Except Time.ReadError Time.Instant :=
  match Time.readStrict s with
  | .ok i => .ok i
  | .error _ => Time.readDay s

/-- Reads a value as a host type. -/
def readValue (type : HostType) (s : List Char) : Except Error Literal :=
  match type with
  | .string => .ok (.string (String.ofList (unquote s)))
  | .inet | .cidr => .ok (.inet (String.ofList (unquote s)))
  | .bool =>
    match boolean? s with
    | some b => .ok (.bool b)
    | none => .error (.notBoolean (String.ofList s))
  | .int =>
    match readSigned 64 s with
    | .ok n => .ok (.int (Int64.ofInt n))
    | .error e => .error (.notInteger (String.ofList s) e)
  | .double =>
    match Double.read s with
    | .ok x => .ok (.double x)
    | .error e => .error (.notNumber (String.ofList s) e)
  | .json =>
    match Json.read (unquote s) with
    | .ok document => .ok (.json document)
    | .error e => .error (.notDocument e)
  | .timestamp =>
    match readInstant (unquote s) with
    | .ok i => .ok (.timestamp i)
    | .error e => .error (.notTimestamp (String.ofList (unquote s)) e)
  | .unknown => .error .notFilterable

/-- Whether a table lets a column be filtered by an operator. A column that is no key column is not
looked at. -/
def accepts (table : VirtualTable) (column : String) (op : Operator) : Bool :=
  match table.keyColumn? column with
  | some key => key.accepts op
  | none => true

/-- The qualifier of a column, an operator and the text behind it. -/
def qualify (table : VirtualTable) (column : VirtualColumn) (op : Operator) (value : List Char) :
    Except Error Qualifier :=
  if !accepts table column.name op then .error (.refusedOperator column.name op)
  else if op.isUnary then
    if value.isEmpty then .ok ⟨column.name, op, none⟩ else .error (.unexpectedValue op)
  else if value.isEmpty then .error (.missingValue op)
  else (readValue column.hostType value).map fun literal => ⟨column.name, op, some literal⟩

/-- Reads a filter on a table. -/
def read (table : VirtualTable) (filter : String) : Except Error Qualifier := do
  let s := trim filter.toList
  let name := String.ofList (s.takeWhile isNameChar)
  if name.isEmpty then .error .noColumn
  else
    match table.column? name with
    | none => .error (.unknownColumn table.name name)
    | some column =>
      let (op, value) ← splitOperator (trimStart (s.dropWhile isNameChar))
      qualify table column op value

/-- A filter that was refused, and why. -/
structure Refusal where
  filter : String
  cause : Error
  deriving DecidableEq, Repr

/-- The wording of a refusal and of what is behind it. -/
def Refusal.chain (r : Refusal) : List String :=
  ("invalid filter '" ++ r.filter ++ "'") :: r.cause.message :: r.cause.cause?.toList

/-- Reads filters on a table up to the first that is refused. -/
def readAll (table : VirtualTable) : List String → Except Refusal (List Qualifier)
  | [] => .ok []
  | filter :: rest =>
    match read table filter with
    | .error cause => .error ⟨filter, cause⟩
    | .ok q => (readAll table rest).map (q :: ·)

end Pushdown.Filter
