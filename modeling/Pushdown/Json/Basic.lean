import Pushdown.Number.Double
import Pushdown.Ordered

/-!
# JSON documents

A document is a tree. Whole numbers in the range of 64-bit words, signed or unsigned, are kept
exactly and every other number is a double. The fields of an object are a list of entries; an object
that was read or built by `ofFields` has rising keys, each once.
-/

namespace Pushdown

open Number (Double)

/-- A JSON document. -/
inductive Json where
  | null
  | bool (value : Bool)
  | int (value : Int)
  | double (value : Double)
  | string (value : String)
  | array (items : List Json)
  | object (fields : List (String × Json))
  deriving Inhabited, Repr

namespace Json

/-- The object of a list of fields, of which the last under each key counts. -/
def ofFields (fields : List (String × Json)) : Json :=
  .object (Ordered.ofList fields)

/-- A double as a document; what is no finite number is null. -/
def ofDouble (x : Double) : Json :=
  if x.isFinite then .double x else .null

/-- The value of a field, if the document is an object that has it. -/
def field? (key : String) : Json → Option Json
  | .object fields => Ordered.find? key fields
  | _ => none

mutual

/-- Equality of documents: doubles are compared as numbers, and a whole number never equals a
double. -/
def same : Json → Json → Bool
  | .null, .null => true
  | .bool a, .bool b => a == b
  | .int a, .int b => a == b
  | .double a, .double b => a.numEq b
  | .string a, .string b => a == b
  | .array as, .array bs => sameItems as bs
  | .object as, .object bs => sameFields as bs
  | _, _ => false

/-- Equality of lists of documents, item by item. -/
def sameItems : List Json → List Json → Bool
  | [], [] => true
  | a :: as, b :: bs => same a b && sameItems as bs
  | _, _ => false

/-- Equality of lists of fields, entry by entry. -/
def sameFields : List (String × Json) → List (String × Json) → Bool
  | [], [] => true
  | (k, a) :: as, (l, b) :: bs => k == l && same a b && sameFields as bs
  | _, _ => false

end

end Json

end Pushdown
