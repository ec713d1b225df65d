import Pushdown.Postgres.Cell
import Pushdown.Source

/-!
# A Postgres server

A server is known by what it answers: whether it lets a client in, the schemas and the catalog rows
it has, and the result of each statement. A result is a list of sets, one for each statement of the
text, and a set is rows of text cells under columns with a name and the number of a type. The result
of a statement is turned into records up to the first row with a cell that is no value of its type
or the first failure of the server, which ends it.
-/

namespace Pushdown.Postgres

/-- A cell as text; empty cells have none. -/
abbrev Cell := Option String

/-- One result set. -/
structure ResultSet where
  columns : List (String × Nat)
  rows : List (List Cell)
  /-- the message of the server if it fails behind the rows -/
  failure : Option String
  deriving Inhabited

/-- A row of the catalog's tables. -/
structure TableRow where
  name : Cell
  comment : Cell
  deriving DecidableEq, Repr, Inhabited

/-- A row of the catalog's columns. -/
structure ColumnRow where
  tableName : Cell
  columnName : Cell
  rawType : Cell
  typeName : Cell
  typeKind : Cell
  typeCategory : Cell
  default : Cell
  identity : Cell
  comment : Cell
  deriving DecidableEq, Repr, Inhabited

/-- What a server answers. -/
structure Server where
  /-- the message with which every client is turned away, if it is -/
  refusal : Option String
  hasSchema : String → Bool
  tables : List TableRow
  columns : List ColumnRow
  /-- the messages with which the three questions about the catalog fail, if they do -/
  schemaFailure : Option String
  tablesFailure : Option String
  columnsFailure : Option String
  /-- the message with which the wish fails that the server look after its client, if it does -/
  watchFailure : Option String
  result : String → List ResultSet

/-- Refuses to go on if the server has failed. -/
def answered : Option String → Except Failure Unit
  | some message => .error (.database message)
  | none => .ok ()

/-- Reads the cells of a row from the column of the given number on into a record. -/
def readCells (record : Record) (index : Nat) :
    List (String × Nat) → List Cell → Except Failure Record
  | (name, oid) :: columns, cell :: cells =>
    match readCell oid cell with
    | .error e => .error (.cell index e)
    | .ok value => readCells (record.insert name value) (index + 1) columns cells
  | _, _ => .ok record

/-- The record of a row. -/
def readRow (columns : List (String × Nat)) (cells : List Cell) : Except Failure Record :=
  readCells .empty 0 columns cells

/-- The records of rows up to the first that is none, and whether all were records. -/
def readRows (columns : List (String × Nat)) : List (List Cell) → List Record × Option Failure
  | [] => ([], none)
  | cells :: rest =>
    match readRow columns cells with
    | .error e => ([], some e)
    | .ok record =>
      let (records, failure) := readRows columns rest
      (record :: records, failure)

/-- The records of result sets up to the first failure. -/
def readSets : List ResultSet → List Record × Option Failure
  | [] => ([], none)
  | set :: rest =>
    match readRows set.columns set.rows with
    | (records, some e) => (records, some e)
    | (records, none) =>
      match set.failure with
      | some message => (records, some (.database message))
      | none =>
        let (more, failure) := readSets rest
        (records ++ more, failure)

namespace Server

/-- The rows of a statement, each a record, and a failure behind them if there is one. The server is
first asked to stop the statement should its client go away. -/
def queryRows (s : Server) (sql : String) : List Item :=
  match s.refusal with
  | some message => [.error (.connection (.database message))]
  | none =>
    -- Old servers cannot look after a client; the statement is run all the same.
    let _ := answered s.watchFailure
    let (records, failure) := readSets (s.result sql)
    records.map .ok ++ (failure.map fun e => .error (.query sql e)).toList

end Server

end Pushdown.Postgres
