import Pushdown.Number.Double
import Pushdown.Text.Blank
import Pushdown.Value

/-!
# Numbers and amounts of money

A numeric cell is a float literal or an amount of dollars: digits, in groups of three behind commas
if there are commas at all, with cents if there is a point, and negative behind a minus sign or
between parentheses. Any other text is kept as it is.
-/

namespace Pushdown.Postgres

open Number

/-- The parts of a text between separators, of which there is at least one. -/
def splitAll (separator : Char) : List Char → List (List Char)
  | [] => [[]]
  | c :: rest =>
    if c = separator then [] :: splitAll separator rest
    else
      match splitAll separator rest with
      | [] => [[c]]
      | part :: parts => (c :: part) :: parts

/-- The digits of a whole amount without its commas: some digits alone, or up to three digits and
then groups of three. -/
def wholeAmount? (s : List Char) : Option (List Char) :=
  match splitAll ',' s with
  | [] => none
  | [digits] => if digits.isEmpty || !digits.all Char.isDigit then none else some digits
  | first :: groups =>
    if first.isEmpty || 3 < first.length || !first.all Char.isDigit then none
    else if groups.all fun g => g.length = 3 && g.all Char.isDigit then
      some (first ++ groups.flatten)
    else none

/-- The amount behind a dollar sign, with the sign it is to have. -/
def dollars? (negative : Bool) (s : List Char) : Option Decimal := do
  let whole ← wholeAmount? (s.takeWhile (· ≠ '.'))
  match s.dropWhile (· ≠ '.') with
  | [] => return ⟨negative, ofDigits whole, 0⟩
  | _ :: cents =>
    if cents.isEmpty || !cents.all Char.isDigit then none
    else return ⟨negative, ofDigits (whole ++ cents), -(cents.length : Int)⟩

/-- What stands between parentheses, if the text does. -/
def inParentheses? : List Char → Option (List Char)
  | '(' :: rest => if rest.getLast? = some ')' then some rest.dropLast else none
  | _ => none

/-- An amount that may have a minus sign unless it is negative already. -/
def signedDollars? (negative : Bool) : List Char → Option Decimal
  | '-' :: '$' :: rest => if negative then none else dollars? true rest
  | '$' :: rest => dollars? negative rest
  | _ => none

/-- Reads an amount of money. -/
def money? (s : List Char) : Option Decimal :=
  let s := Text.trim s
  match inParentheses? s with
  | some inner => signedDollars? true (Text.trim inner)
  | none => signedDollars? false s

/-- The value of a numeric cell: a number, an amount of money, or the text. -/
def numberOrText (text : String) : Value :=
  match Double.ofText? text.toList with
  | some x => .float x
  | none =>
    match money? text.toList with
    | some amount => .float (.ofDecimal amount)
    | none => .string text

end Pushdown.Postgres
