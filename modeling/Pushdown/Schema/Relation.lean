import Pushdown.Schema.Type

/-!
# Discovered tables

A relation is a table as it was found in the database, its columns in their order there.
-/

namespace Pushdown

/-- The type of a column: its category and the text that the database shows for it. -/
structure ColumnType where
  native : NativeType
  raw : String
  deriving DecidableEq, Repr, Inhabited

/-- A column as it was found in the database. -/
structure Column where
  name : String
  type : ColumnType
  comment : Option String
  deriving DecidableEq, Repr, Inhabited

/-- A table as it was found in the database. -/
structure Relation where
  name : String
  comment : Option String
  columns : List Column
  deriving DecidableEq, Repr, Inhabited

/-- The host type of a column. -/
def Column.hostType (c : Column) : HostType :=
  c.type.native.hostType

end Pushdown
