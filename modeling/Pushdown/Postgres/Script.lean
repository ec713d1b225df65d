import Pushdown.Json.Reader
import Pushdown.Postgres.Server
import Pushdown.Schema.Document

/-!
# Recorded servers

A server whose answers were recorded is written as a JSON document. Its fields are `refuse` (the
message with which every client is turned away), `schemas` (those that are there; without it all
are), `tables` and `columns` (the rows of the catalog), `fail` (the messages of the questions that
fail, under `exists`, `tables` and `columns`, and of the wish that the server look after its client,
under `set`) and `results` (for each statement its result sets; a recording without a statement
answers every one, and the first that fits counts). Every field may be left out.
-/

namespace Pushdown.Postgres

/-- The text under a key, where null and a missing field are an empty cell. -/
def cellAt (key : String) (document : Json) : Option Cell :=
  ((document.field? key).getD .null).optionalText?

/-- The items under a key, where null and a missing field are none. -/
def itemsAt (key : String) (document : Json) : Option (List Json) :=
  match document.field? key with
  | none => some []
  | some .null => some []
  | some items => items.items?

/-- Reads the document of a catalog row of a table. -/
def TableRow.ofJson? (document : Json) : Option TableRow := do
  return ⟨← cellAt "table_name" document, ← cellAt "table_comment" document⟩

/-- Reads the document of a catalog row of a column. -/
def ColumnRow.ofJson? (document : Json) : Option ColumnRow := do
  return {
    tableName := ← cellAt "table_name" document
    columnName := ← cellAt "column_name" document
    rawType := ← cellAt "raw_type" document
    typeName := ← cellAt "type_name" document
    typeKind := ← cellAt "type_kind" document
    typeCategory := ← cellAt "type_category" document
    default := ← cellAt "column_default" document
    identity := ← cellAt "identity" document
    comment := ← cellAt "column_comment" document }

/-- Reads the name of a column and the number of its type. -/
def columnOfJson? : Json → Option (String × Nat)
  | .array [.string name, .int oid] => if oid < 0 then none else some (name, oid.toNat)
  | _ => none

/-- Reads the cells of a row. -/
def rowOfJson? (document : Json) : Option (List Cell) := do
  (← document.items?).mapM Json.optionalText?

/-- Reads the document of a result set. -/
def ResultSet.ofJson? (document : Json) : Option ResultSet := do
  return {
    columns := ← (← itemsAt "columns" document).mapM columnOfJson?
    rows := ← (← itemsAt "rows" document).mapM rowOfJson?
    failure := ← cellAt "fail" document }

/-- The recorded result of a statement, or of any if none is named. -/
structure Recording where
  sql : Option String
  sets : List ResultSet

namespace Recording

/-- Reads the document of a recorded result. -/
def ofJson? (document : Json) : Option Recording := do
  return {
    sql := ← cellAt "sql" document
    sets := ← (← itemsAt "sets" document).mapM ResultSet.ofJson? }

/-- The result of a statement: that of the first recording that fits it, or else no sets. -/
def result (recordings : List Recording) (sql : String) : List ResultSet :=
  match recordings.find? fun r => r.sql.isNone || r.sql == some sql with
  | some r => r.sets
  | none => []

end Recording

/-- Which schemas a server has. -/
def schemasOfJson? : Option Json → Option (String → Bool)
  | none => some fun _ => true
  | some .null => some fun _ => true
  | some document => do
    let names ← (← document.items?).mapM Json.text?
    return names.contains

/-- Reads the document of a recorded server. -/
def Server.ofJson? (document : Json) : Option Server := do
  let failures := (document.field? "fail").getD .null
  let recordings ← (← itemsAt "results" document).mapM Recording.ofJson?
  return {
    refusal := ← cellAt "refuse" document
    hasSchema := ← schemasOfJson? (document.field? "schemas")
    tables := ← (← itemsAt "tables" document).mapM TableRow.ofJson?
    columns := ← (← itemsAt "columns" document).mapM ColumnRow.ofJson?
    schemaFailure := ← cellAt "exists" failures
    tablesFailure := ← cellAt "tables" failures
    columnsFailure := ← cellAt "columns" failures
    watchFailure := ← cellAt "set" failures
    result := Recording.result recordings }

end Pushdown.Postgres
