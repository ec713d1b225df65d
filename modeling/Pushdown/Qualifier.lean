import Pushdown.Json.Basic
import Pushdown.Operator
import Pushdown.Time.Instant

/-!
# Qualifiers

A qualifier is one filter condition: a column, an operator and the literal it compares with. The
qualifiers of a request all have to hold.
-/

namespace Pushdown

open Number (Double)
open Time (Instant)

/-- The literal of a filter. -/
inductive Literal where
  | bool (value : Bool)
  | int (value : Int64)
  | double (value : Double)
  | string (text : String)
  /-- an address or a block of addresses in text form -/
  | inet (text : String)
  | json (document : Json)
  | timestamp (instant : Instant)
  /-- a set of literals, for which there is no SQL -/
  | list (items : List Literal)
  deriving Inhabited

/-- The text of a literal that is one. -/
def Literal.text? : Literal → Option String
  | .string s => some s
  | .inet s => some s
  | _ => none

/-- One filter condition. -/
structure Qualifier where
  column : String
  operator : Operator
  value : Option Literal
  deriving Inhabited

end Pushdown
