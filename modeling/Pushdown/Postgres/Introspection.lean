import Pushdown.Postgres.Classify
import Pushdown.Postgres.Server

/-!
# Introspection of a Postgres schema

The relations of a schema are read in three questions: whether the schema is there, its tables and
its columns. Columns go to the table of their name in the order they come in, and the first table
of a name takes them all. An empty cell where the catalog has to have one is a failure, and with a
failure there are no relations at all.
-/

namespace Pushdown.Postgres

/-- The text of a cell that must not be empty. -/
def required (column : String) : Cell → Except Failure String
  | some text => .ok text
  | none => .error (.missing column)

/-- The table a column belongs to and the column. The cells are looked at in their order. -/
def ColumnRow.read (row : ColumnRow) : Except Failure (String × Column) := do
  let tableName ← required "table_name" row.tableName
  let name ← required "column_name" row.columnName
  let raw ← required "raw_type" row.rawType
  let typeName ← required "type_name" row.typeName
  let typeKind ← required "type_kind" row.typeKind
  let typeCategory ← required "type_category" row.typeCategory
  let identity ← required "identity" row.identity
  let native := classify ⟨typeName, typeKind, typeCategory, row.default, identity⟩
  return (tableName, ⟨name, ⟨native, raw⟩, row.comment⟩)

/-- The columns of a table. -/
def columnsOf (table : String) (columns : List (String × Column)) : List Column :=
  (columns.filter (·.1 = table)).map Prod.snd

/-- The columns that are left for other tables. -/
def columnsBeside (table : String) (columns : List (String × Column)) : List (String × Column) :=
  columns.filter (·.1 ≠ table)

/-- The relations of table rows, each with the columns of its name that are left. -/
def readTables (columns : List (String × Column)) : List TableRow → Except Failure (List Relation)
  | [] => .ok []
  | row :: rest => do
    let name ← required "table_name" row.name
    let relations ← readTables (columnsBeside name columns) rest
    return ⟨name, row.comment, columnsOf name columns⟩ :: relations

namespace Server

/-- The relations of a schema, once the server lets the client in. -/
def readSchema (s : Server) (schema : String) : Except Failure (List Relation) := do
  answered s.schemaFailure
  if !s.hasSchema schema then .error (.told ("schema \"" ++ schema ++ "\" does not exist"))
  answered s.tablesFailure
  answered s.columnsFailure
  let columns ← s.columns.mapM ColumnRow.read
  readTables columns s.tables

/-- The relations of a schema. -/
def introspect (s : Server) (schema : String) : Except Error (List Relation) :=
  match s.refusal with
  | some message => .error (.connection (.database message))
  | none => (s.readSchema schema).mapError (.introspection schema)

/-- The server as a source. The address is the one it is reached at. -/
def source (s : Server) : Source where
  introspect _ schema := s.introspect schema
  query _ sql := s.queryRows sql

end Server

end Pushdown.Postgres
