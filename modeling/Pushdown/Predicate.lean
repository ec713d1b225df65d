import Pushdown.Json.Writer
import Pushdown.Qualifier

/-!
# Filters as SQL

Qualifiers are rendered as the condition of a `WHERE` clause, joined by `AND` in their order. Names
of columns stand as they are. A text is put between single quotes; the verbatim style leaves the
quotes inside it alone and the escaped style doubles them.
-/

namespace Pushdown

/-- What becomes of a single quote inside a quoted text. -/
inductive QuoteStyle where
  | verbatim
  | escaped
  deriving DecidableEq, Repr, Inhabited

/-- A text with each single quote written twice. -/
def doubleQuotes : List Char → List Char
  | [] => []
  | c :: rest => if c = '\'' then '\'' :: '\'' :: doubleQuotes rest else c :: doubleQuotes rest

namespace QuoteStyle

/-- A text between single quotes. -/
def quote (style : QuoteStyle) (s : List Char) : List Char :=
  match style with
  | .verbatim => '\'' :: s ++ ['\'']
  | .escaped => '\'' :: doubleQuotes s ++ ['\'']

/-- The SQL of a literal. A list has none, so the statement is refused by the database instead of
losing a filter. -/
def literal (style : QuoteStyle) : Literal → List Char
  | .bool true => "true".toList
  | .bool false => "false".toList
  | .int n => Number.ofInt n.toInt
  | .double x => x.plain
  | .string s => style.quote s.toList
  | .inet s => style.quote s.toList
  | .json document => style.quote document.write
  | .timestamp i => style.quote i.writeSeconds
  | .list _ => "<INVALID>".toList

/-- The SQL of one condition. -/
def condition (style : QuoteStyle) (q : Qualifier) : List Char :=
  q.column.toList ++ ' ' :: q.operator.sql.toList ++
    match q.value with
    | none => []
    | some value => ' ' :: style.literal value

/-- The SQL of conditions that all have to hold, one after the other. -/
def conditions (style : QuoteStyle) : List Qualifier → List Char
  | [] => []
  | [q] => style.condition q
  | q :: rest => style.condition q ++ " AND ".toList ++ style.conditions rest

/-- The condition that qualifiers make together; the empty text if there is none. -/
def render (style : QuoteStyle) (quals : List Qualifier) : String :=
  String.ofList (style.conditions quals)

end QuoteStyle

/-- The statement that reads the rows of a table under a condition. -/
def selectStatement (schema table condition : String) : String :=
  let select := "SELECT * FROM " ++ schema ++ "." ++ table
  if condition.isEmpty then select else select ++ " WHERE " ++ condition

end Pushdown
