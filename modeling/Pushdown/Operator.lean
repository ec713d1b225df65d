import Pushdown.Text.Blank

/-!
# Comparison operators

The operators of a filter, each with its SQL text. An operator is read from any of its spellings,
in any case of letters and with white space around it. Main statement: the SQL text of an operator
reads back as the operator (`read_sql`).
-/

namespace Pushdown

/-- A comparison operator. -/
inductive Operator where
  | equal
  | notEqual
  | less
  | lessEqual
  | greater
  | greaterEqual
  | like
  | notLike
  | caselessLike
  | notCaselessLike
  | isNull
  | isNotNull
  deriving DecidableEq, Repr, Inhabited

namespace Operator

/-- Every operator. -/
def all : List Operator :=
  [.equal, .notEqual, .less, .lessEqual, .greater, .greaterEqual, .like, .notLike, .caselessLike,
    .notCaselessLike, .isNull, .isNotNull]

/-- The SQL text of an operator. -/
def sql : Operator → String
  | .equal => "="
  | .notEqual => "!="
  | .less => "<"
  | .lessEqual => "<="
  | .greater => ">"
  | .greaterEqual => ">="
  | .like => "~~"
  | .notLike => "!~~"
  | .caselessLike => "~~*"
  | .notCaselessLike => "!~~*"
  | .isNull => "IS NULL"
  | .isNotNull => "IS NOT NULL"

/-- Whether an operator stands without a value. -/
def isUnary : Operator → Bool
  | .isNull | .isNotNull => true
  | _ => false

/-- The operator that a text in capitals spells. -/
def ofSpelling? : String → Option Operator
  | "=" => some .equal
  | "!=" | "<>" => some .notEqual
  | "<" => some .less
  | "<=" => some .lessEqual
  | ">" => some .greater
  | ">=" => some .greaterEqual
  | "~~" | "LIKE" => some .like
  | "!~~" | "NOT LIKE" => some .notLike
  | "~~*" | "ILIKE" => some .caselessLike
  | "!~~*" | "NOT ILIKE" => some .notCaselessLike
  | "IS NULL" => some .isNull
  | "IS NOT NULL" => some .isNotNull
  | _ => none

/-- A text that spells no operator, in capitals and without the white space around it. -/
structure Unknown where
  text : String
  deriving DecidableEq, Repr

/-- The wording of an unknown operator. -/
def Unknown.message (e : Unknown) : String :=
  "unknown operator '" ++ e.text ++ "'"

/-- Reads an operator. -/
def read (s : String) : Except Unknown Operator :=
  let spelling := String.ofList (Text.upper (Text.trim s.toList))
  match ofSpelling? spelling with
  | some op => .ok op
  | none => .error ⟨spelling⟩

theorem ofSpelling?_sql (op : Operator) : ofSpelling? op.sql = some op := by
  cases op <;> rfl

/-- The SQL text of an operator reads back as the operator. -/
theorem read_sql (op : Operator) : read op.sql = .ok op := by
  cases op <;> rfl

end Operator

end Pushdown
