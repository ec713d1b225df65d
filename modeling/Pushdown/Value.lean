import Pushdown.Json.Writer
import Pushdown.Time.Instant

/-!
# Values of result rows

A value is what one cell of a result row holds. Each has a document: bytes as their digits behind
`\x`, instants as RFC 3339, and what is no finite number as null.
-/

namespace Pushdown

open Number (Double)
open Time (Instant)

/-- The value of a cell. -/
inductive Value where
  | null
  | bool (value : Bool)
  | int (value : Int64)
  | float (value : Double)
  | string (text : String)
  | bytes (data : List UInt8)
  | json (document : Json)
  | timestamp (instant : Instant)
  deriving Inhabited

namespace Value

/-- Whether the cell is empty. -/
def isNull : Value → Bool
  | .null => true
  | _ => false

/-- The text of bytes: a backslash, an x and the digits. -/
def bytesText (data : List UInt8) : List Char :=
  '\\' :: 'x' :: Text.Hex.ofBytes data

/-- The document of a value. -/
def toJson : Value → Json
  | .null => .null
  | .bool b => .bool b
  | .int n => .int n.toInt
  | .float x => .ofDouble x
  | .string s => .string s
  | .bytes data => .string (String.ofList (bytesText data))
  | .json document => document
  | .timestamp i => .string (String.ofList i.write)

/-- Equality of values. Numbers are compared as numbers, and only with numbers of their kind. -/
def same : Value → Value → Bool
  | .null, .null => true
  | .bool a, .bool b => a == b
  | .int a, .int b => a == b
  | .float a, .float b => a.numEq b
  | .string a, .string b => a == b
  | .bytes a, .bytes b => a == b
  | .json a, .json b => a.same b
  | .timestamp a, .timestamp b => a == b
  | _, _ => false

end Value

end Pushdown
