import Pushdown.Text.Printable

/-!
# Quoted texts in messages

Messages show a text between quotes, with a backslash before what would end or hide it. Characters
that are not printable are shown by their code points.
-/

namespace Pushdown.Text

/-- A code point between braces. -/
def showCode (c : Char) : List Char :=
  ['\\', 'u', '\x7b'] ++ Nat.toDigits 16 c.toNat ++ ['\x7d']

/-- A character inside quotes, of which `quotes` need a backslash. -/
def showChar (quotes : List Char) (c : Char) : List Char :=
  if c = '\x00' then ['\\', '0']
  else if c = '\t' then ['\\', 't']
  else if c = '\r' then ['\\', 'r']
  else if c = '\n' then ['\\', 'n']
  else if c = '\\' || quotes.contains c then ['\\', c]
  else if isPrintable c then [c]
  else showCode c

/-- A text between double quotes. -/
def shown (s : String) : String :=
  String.ofList ('"' :: s.toList.flatMap (showChar ['"']) ++ ['"'])

/-- The path of a file between double quotes. A single quote has a backslash too. -/
def shownPath (s : String) : String :=
  String.ofList ('"' :: s.toList.flatMap (showChar ['"', '\'']) ++ ['"'])

/-- A character between single quotes. -/
def shownChar (c : Char) : String :=
  String.ofList ('\'' :: showChar ['\''] c ++ ['\''])

end Pushdown.Text
