import Pushdown.Schema.Type
import Pushdown.Text.Blank

/-!
# Classification of Postgres types

The category of a column from what the catalog says about its type. The kind of the type decides
first, then whether it is an array, then its name. An integer that is numbered by an identity or by
a sequence is a serial number.
-/

namespace Pushdown.Postgres

/-- What the catalog says about the type of a column. -/
structure TypeFacts where
  typeName : String
  typeKind : String
  typeCategory : String
  default : Option String
  identity : String
  deriving DecidableEq, Repr, Inhabited

/-- Whether a column is numbered by the database. -/
def TypeFacts.isSerial (f : TypeFacts) : Bool :=
  !f.identity.isEmpty ||
    match f.default with
    | some text => "nextval(".toList.isPrefixOf (Text.trimStart text.toList)
    | none => false

/-- The category that the kind of a type decides. -/
def ofKind? : String → Option NativeType
  | "e" => some .enum
  | "r" | "m" => some .range
  | "c" | "d" | "p" => some .userDefined
  | _ => none

/-- The category of a type by its name. -/
def ofName : String → NativeType
  | "int2" | "int4" | "int8" => .integer
  | "numeric" => .decimal
  | "float4" | "float8" => .float
  | "money" => .currency
  | "bool" => .boolean
  | "text" | "varchar" | "bpchar" | "char" | "name" | "citext" => .string
  | "bytea" => .binary
  | "bit" | "varbit" => .bit
  | "uuid" => .uuid
  | "json" | "jsonb" => .json
  | "date" | "time" | "timetz" | "timestamp" | "timestamptz" => .time
  | "interval" => .interval
  | "inet" => .network .host
  | "cidr" => .network .block
  | "macaddr" => .network (.other "macaddr")
  | "macaddr8" => .network (.other "macaddr8")
  | "tsvector" | "tsquery" => .textSearch
  | "xml" => .xml
  | "oid" | "regclass" | "regcollation" | "regconfig" | "regdictionary" | "regnamespace"
  | "regoper" | "regoperator" | "regproc" | "regprocedure" | "regrole" | "regtype" => .objectId
  | "point" | "line" | "lseg" | "box" | "path" | "polygon" | "circle" | "geometry"
  | "geography" => .spatial
  | _ => .unsupported

/-- The category of a column. -/
def classify (f : TypeFacts) : NativeType :=
  match ofKind? f.typeKind with
  | some type => type
  | none =>
    if f.typeCategory = "A" then .array
    else
      match ofName f.typeName with
      | .integer => if f.isSerial then .serial else .integer
      | type => type

end Pushdown.Postgres
