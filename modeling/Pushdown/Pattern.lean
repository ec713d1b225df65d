import Pushdown.Pattern.Item
import Pushdown.Regex.Match

/-!
# Table patterns

A pattern is matched by way of a regular expression. Each item is written as a piece of it, with
every character escaped that would mean something there, and the whole is anchored at both ends, so
that it matches all of a name or nothing. The expression is read once for a pattern and then serves
for every name.
-/

namespace Pushdown

namespace Pattern

/-! ## Expressions -/

/-- The characters that can have a meaning inside of the brackets of a class. -/
def classMarks : List Char :=
  ['\\', ']', '[', '^', '-', '&', '~']

/-- A character inside of the brackets of a class. -/
def classChar (c : Char) : List Char :=
  if c ∈ classMarks then ['\\', c] else [c]

/-- The expression of a range of a class. -/
def Range.expression : Range → List Char
  | .single c => classChar c
  | .between low high => classChar low ++ '-' :: classChar high

/-- The expression of an item. -/
def Item.expression : Item → List Char
  | .anyRun => ['[', '^', '/', ']', '*']
  | .anyOne => ['[', '^', '/', ']']
  | .set negated ranges =>
    '[' :: ((if negated then ['^'] else []) ++ ranges.flatMap Range.expression ++ [']'])
  | .exactly c => Regex.escape c

/-- The expression of a whole pattern. -/
def expression (items : List Item) : List Char :=
  '^' :: (items.flatMap Item.expression ++ ['$'])

/-! ## Errors -/

/-- Why there is no pattern for a text. -/
inductive Error where
  /-- The text is no pattern. -/
  | malformed (glob : String)
  /-- The expression of the pattern cannot be read. -/
  | refused (glob : String)
  deriving DecidableEq, Repr

/-- The wording of a pattern error. -/
def Error.message : Error → String
  | .malformed glob => "syntax error in pattern '" ++ glob ++ "'"
  | .refused glob => "invalid pattern '" ++ glob ++ "': regex parse error"

end Pattern

/-- A pattern: the text it was read from and the expression that stands for it. -/
structure Pattern where
  glob : String
  regex : Regex
  deriving DecidableEq, Repr

namespace Pattern

/-- Reads a pattern. -/
def read (glob : String) : Except Error Pattern :=
  match (Text.Backslash.tokens? glob.toList).bind items? with
  | none => .error (.malformed glob)
  | some items =>
    match Regex.read? (expression items) with
    | none => .error (.refused glob)
    | some regex => .ok ⟨glob, regex⟩

/-- Whether a pattern matches a name. -/
def accepts (p : Pattern) (name : String) : Bool :=
  p.regex.isMatch name

end Pattern

end Pushdown
