/-!
# Column types

The type of a column as the database's catalog has it, and the scalar type under which the host
sees the column. A type that the host has no word for is `unknown`, and its columns are dropped.
-/

namespace Pushdown

/-- What a network address column holds. -/
inductive NetworkKind where
  /-- an address, with or without a mask -/
  | host
  /-- a block of addresses -/
  | block
  /-- any other, by the name of its type -/
  | other (typeName : String)
  deriving DecidableEq, Repr, Inhabited

/-- The category of a column type in the database. -/
inductive NativeType where
  | binary
  | bit
  | enum
  | string
  | uuid
  | boolean
  | decimal
  | float
  | currency
  | integer
  | json
  | time
  | interval
  | network (kind : NetworkKind)
  | spatial
  | textSearch
  | array
  | serial
  | objectId
  | range
  | userDefined
  | xml
  | unsupported
  deriving DecidableEq, Repr, Inhabited

/-- A scalar type of the host. -/
inductive HostType where
  | string
  | bool
  | double
  | int
  | json
  | timestamp
  | inet
  | cidr
  | unknown
  deriving DecidableEq, Repr, Inhabited

/-- The host's word for a type. -/
def HostType.name : HostType → String
  | .string => "STRING"
  | .bool => "BOOL"
  | .double => "DOUBLE"
  | .int => "INT"
  | .json => "JSON"
  | .timestamp => "TIMESTAMP"
  | .inet => "INET"
  | .cidr => "CIDR"
  | .unknown => "UNKNOWN"

/-- The host type that shows a native type. -/
def NativeType.hostType : NativeType → HostType
  | .binary | .bit | .enum | .string | .uuid => .string
  | .boolean => .bool
  | .decimal | .float | .currency => .double
  | .integer => .int
  | .json => .json
  | .time | .interval => .timestamp
  | .network .host => .inet
  | .network .block => .cidr
  | .network (.other _) => .unknown
  | .spatial | .textSearch | .array | .serial | .objectId | .range | .userDefined | .xml
  | .unsupported => .unknown

/-- The types without a parameter and their names in documents. -/
def NativeType.plainNames : List (String × NativeType) :=
  [("binary", .binary), ("bit", .bit), ("enum", .enum), ("string", .string), ("uuid", .uuid),
    ("boolean", .boolean), ("decimal", .decimal), ("float", .float), ("currency", .currency),
    ("integer", .integer), ("json", .json), ("time", .time), ("interval", .interval),
    ("spatial", .spatial), ("text_search", .textSearch), ("array", .array), ("serial", .serial),
    ("object_id", .objectId), ("range", .range), ("user_defined", .userDefined), ("xml", .xml),
    ("unsupported", .unsupported)]

end Pushdown
