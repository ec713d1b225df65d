import Pushdown.Number.Numeral

/-!
# Reports of failed commands

A report gives the outermost text and below it the texts behind it. One text is indented; several
are numbered. A text of several lines keeps its later lines below its first.
-/

namespace Pushdown.Command

/-- A text with further characters behind each line break. -/
def indentLines (indent : List Char) : List Char → List Char
  | [] => []
  | c :: rest =>
    if c = '\n' then c :: indent ++ indentLines indent rest else c :: indentLines indent rest

/-- So many spaces. -/
def spaces (n : Nat) : List Char :=
  List.replicate n ' '

/-- A number in front of a text. -/
def numbered (n : Nat) (text : List Char) : List Char :=
  let number := Number.digits n
  '\n' :: spaces (5 - number.length) ++ number ++ [':', ' '] ++ indentLines (spaces 7) text

/-- Texts with their numbers, of which the first is given. -/
def numberedFrom (n : Nat) : List (List Char) → List Char
  | [] => []
  | text :: rest => numbered n text ++ numberedFrom (n + 1) rest

/-- The list of the texts behind a failure. -/
def causeList : List (List Char) → List Char
  | [] => []
  | [text] => "\n\nCaused by:\n".toList ++ spaces 4 ++ indentLines (spaces 4) text
  | texts => "\n\nCaused by:".toList ++ numberedFrom 0 texts

/-- The report of a chain of texts, outermost first. -/
def report : List String → String
  | [] => ""
  | outermost :: causes =>
    "Error: " ++ outermost ++ String.ofList (causeList (causes.map String.toList)) ++ "\n"

end Pushdown.Command
