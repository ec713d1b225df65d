import Pushdown.Json.Number
import Pushdown.Text.Hex
import Pushdown.Text.Shown

/-!
# Failures of a source

What a source of rows can report, with its wording and the chain of its causes, outermost first.
-/

namespace Pushdown

/-- Why the text of a cell is no value of its type. -/
inductive CellError where
  | notBoolean (text : String)
  | badInteger (cause : Number.IntegerError)
  | badFloat (cause : Number.FloatError)
  | noMarker
  | badBytes (cause : Text.Hex.Error)
  | badDocument (cause : Json.ReadError)
  deriving DecidableEq, Repr

/-- The wording of a cell error. -/
def CellError.message : CellError → String
  | .notBoolean text => "unexpected value " ++ Text.shown text ++ " for boolean"
  | .badInteger cause => cause.message
  | .badFloat cause => cause.message
  | .noMarker => "text does not start with \\x"
  | .badBytes .oddLength => "Odd number of digits"
  | .badBytes (.badDigit c position) =>
    "Invalid character " ++ Text.shownChar c ++ " at position " ++
      String.ofList (Number.digits position)
  | .badDocument cause => cause.message

/-- A failure at the source. -/
inductive Failure where
  /-- a failure that is told in plain words -/
  | told (text : String)
  /-- a message of the database -/
  | database (text : String)
  /-- a cell that is no value of its type, by the number of its column -/
  | cell (column : Nat) (cause : CellError)
  /-- a catalog cell that is empty and must not be -/
  | missing (column : String)
  deriving DecidableEq, Repr

namespace Failure

/-- The wording of a failure. -/
def message : Failure → String
  | .told text => text
  | .database text => "error returned from database: " ++ text
  | .cell column cause =>
    "error occurred while decoding column " ++ String.ofList (Number.digits column) ++ ": " ++
      cause.message
  | .missing column =>
    "error occurred while decoding column \"" ++ column ++ "\": " ++ missingText
where
  missingText : String := "unexpected null; try decoding as an `Option`"

/-- The wording of what is behind a failure. -/
def cause? : Failure → Option String
  | .told _ => none
  | .database text => some text
  | .cell _ cause => some cause.message
  | .missing _ => some message.missingText

/-- The wording of a failure and of what is behind it. -/
def chain (f : Failure) : List String :=
  f.message :: f.cause?.toList

end Failure

end Pushdown
