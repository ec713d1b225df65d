import Pushdown.Json.Basic
import Pushdown.VirtualTable

/-!
# Virtual tables as documents

The document of a virtual table has its fields in the order of their declaration.
-/

namespace Pushdown

/-- The name of a requirement. -/
def Requirement.name : Requirement → String
  | .optional => "optional"
  | .required => "required"

/-- The name of a table kind. -/
def TableKind.name : TableKind → String
  | .dynamic => "dynamic"
  | .rawQuery => "raw_query"

/-- The document of a column. -/
def VirtualColumn.toJson (c : VirtualColumn) : Json :=
  .object [("name", .string c.name), ("host_type", .string c.hostType.name),
    ("description", .string c.description)]

/-- The document of a key column. -/
def KeyColumn.toJson (k : KeyColumn) : Json :=
  .object [("name", .string k.name),
    ("operators", .array (k.operators.map fun op => .string op.sql)),
    ("require", .string k.require.name)]

/-- The document of a virtual table. -/
def VirtualTable.toJson (t : VirtualTable) : Json :=
  .object [("name", .string t.name), ("description", .string t.description),
    ("columns", .array (t.columns.map VirtualColumn.toJson)),
    ("key_columns", .array (t.keyColumns.map KeyColumn.toJson)),
    ("kind", .string t.kind.name)]

end Pushdown
