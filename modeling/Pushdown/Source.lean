import Pushdown.Error
import Pushdown.Record
import Pushdown.Schema.Relation

/-!
# Sources of rows

A source is asked for the relations of a schema and for the rows of a statement. What it answers to
a statement is a list of items, each a row or a failure. Calls to a source are values, so that an
answer can say which calls it took. A call is only ever made by asking.
-/

namespace Pushdown

/-- One item of an answer: a row or a failure. -/
abbrev Item := Except Error Record

/-- A source of relations and rows. -/
structure Source where
  introspect : (url schema : String) → Except Error (List Relation)
  query : (url sql : String) → List Item

/-- A call to a source. -/
inductive Call where
  | introspect (url schema : String)
  | query (url sql : String)
  deriving DecidableEq, Repr

namespace Source

/-- Asks a source for the relations of a schema. The call comes along. -/
def askRelations (s : Source) (url schema : String) : Except Error (List Relation) × Call :=
  (s.introspect url schema, .introspect url schema)

/-- Asks a source for the rows of a statement. The call comes along. -/
def askRows (s : Source) (url sql : String) : List Item × Call :=
  (s.query url sql, .query url sql)

end Source

/-- A call in one line. -/
def Call.text : Call → String
  | .introspect url schema => "introspect " ++ url ++ " " ++ schema
  | .query url sql => "query " ++ url ++ " " ++ sql

end Pushdown
