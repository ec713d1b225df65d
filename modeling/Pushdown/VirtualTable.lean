import Pushdown.Operator
import Pushdown.Schema.Relation

/-!
# Virtual tables

A virtual table is what the host sees. One is synthesized from each relation: columns that the host
has no type for are dropped, and each of the others is also a key column that accepts every
operator, since all filtering is left to the database. One more table forwards a query as it is.
-/

namespace Pushdown

/-- A column that the host sees. -/
structure VirtualColumn where
  name : String
  hostType : HostType
  description : String
  deriving DecidableEq, Repr, Inhabited

/-- Whether the host has to give a filter on a key column. -/
inductive Requirement where
  | optional
  | required
  deriving DecidableEq, Repr, Inhabited

/-- A column that the host may filter on, with the operators it may use. -/
structure KeyColumn where
  name : String
  operators : List Operator
  require : Requirement
  deriving DecidableEq, Repr, Inhabited

/-- Whether a key column may be filtered by an operator. -/
def KeyColumn.accepts (k : KeyColumn) (op : Operator) : Bool :=
  k.operators.contains op

/-- Where the rows of a virtual table come from. -/
inductive TableKind where
  /-- all columns of the relation of the same name -/
  | dynamic
  /-- the query that a filter brings along -/
  | rawQuery
  deriving DecidableEq, Repr, Inhabited

/-- A table that the host sees. -/
structure VirtualTable where
  name : String
  description : String
  columns : List VirtualColumn
  keyColumns : List KeyColumn
  kind : TableKind
  deriving DecidableEq, Repr, Inhabited

namespace VirtualTable

/-- The first column of a name. -/
def column? (t : VirtualTable) (name : String) : Option VirtualColumn :=
  t.columns.find? (·.name = name)

/-- The first key column of a name. -/
def keyColumn? (t : VirtualTable) (name : String) : Option KeyColumn :=
  t.keyColumns.find? (·.name = name)

/-- The columns of a relation that the host has a type for. -/
def shownColumns (r : Relation) : List Column :=
  r.columns.filter fun c => c.hostType ≠ .unknown

/-- The virtual table of a relation. -/
def synthesize (r : Relation) : VirtualTable where
  name := r.name
  description := r.comment.getD ""
  columns := (shownColumns r).map fun c => ⟨c.name, c.hostType, c.comment.getD ""⟩
  keyColumns := (shownColumns r).map fun c => ⟨c.name, Operator.all, .optional⟩
  kind := .dynamic

/-- The column of the raw-query table that brings the query along. -/
def queryColumn : String := "query"

/-- The column of the raw-query table that holds the answer. -/
def dataColumn : String := "data"

/-- The table that forwards a query. -/
def rawQuery (name : String) : VirtualTable where
  name := name
  description := "Makes a raw SQL query (as a string) and returns any results as a single JSONB " ++
    "column. Use for more complex queries"
  columns :=
    [⟨queryColumn, .string, "The query that will be forwarded to the Postgres DB"⟩,
      ⟨dataColumn, .json, "The resultset, all wrapped in a JSONB column"⟩]
  keyColumns := [⟨queryColumn, [.equal], .required⟩]
  kind := .rawQuery

end VirtualTable

end Pushdown
