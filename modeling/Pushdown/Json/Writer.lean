import Pushdown.Json.Basic
import Pushdown.Number.Layout
import Pushdown.Text.Hex

/-!
# Writing JSON

The compact form has no white space. The indented form puts each item and each field on a line of
its own, two spaces deeper than what holds it. In a string the quote, the backslash and the
characters below the space are escaped and all else stands as it is.
-/

namespace Pushdown.Json

open Number Text

/-- A character inside a string. -/
def writeChar (c : Char) : List Char :=
  if c = '"' then ['\\', '"']
  else if c = '\\' then ['\\', '\\']
  else if c = '\n' then ['\\', 'n']
  else if c = '\r' then ['\\', 'r']
  else if c = '\t' then ['\\', 't']
  else if c = '\x08' then ['\\', 'b']
  else if c = '\x0c' then ['\\', 'f']
  else if c.toNat < 32 then
    ['\\', 'u', '0', '0', Hex.digit (c.toNat / 16), Hex.digit (c.toNat % 16)]
  else [c]

/-- A string with its quotes. -/
def writeString (s : String) : List Char :=
  '"' :: s.toList.flatMap writeChar ++ ['"']

/-- A document without parts. What is no finite number is written as null. -/
def writeLeaf : Json → List Char
  | .bool true => "true".toList
  | .bool false => "false".toList
  | .int n => ofInt n
  | .double x => x.document?.getD "null".toList
  | .string s => writeString s
  | _ => "null".toList

mutual

/-- The compact form. -/
def write : Json → List Char
  | .array items => '[' :: writeItems items ++ [']']
  | .object fields => '\x7b' :: writeFields fields ++ ['\x7d']
  | leaf => writeLeaf leaf

/-- Items with commas between them. -/
def writeItems : List Json → List Char
  | [] => []
  | [item] => write item
  | item :: rest => write item ++ ',' :: writeItems rest

/-- Fields with commas between them. -/
def writeFields : List (String × Json) → List Char
  | [] => []
  | [(key, value)] => writeString key ++ ':' :: write value
  | (key, value) :: rest => writeString key ++ ':' :: write value ++ ',' :: writeFields rest

end

theorem write_array (items : List Json) :
    write (.array items) = '[' :: (writeItems items ++ [']']) := rfl

theorem write_object (fields : List (String × Json)) :
    write (.object fields) = '\x7b' :: (writeFields fields ++ ['\x7d']) := rfl

theorem writeItems_cons_cons (item next : Json) (items : List Json) :
    writeItems (item :: next :: items) = write item ++ ',' :: writeItems (next :: items) := rfl

theorem writeFields_cons_cons (key : String) (value : Json) (next : String × Json)
    (fields : List (String × Json)) :
    writeFields ((key, value) :: next :: fields) =
      writeString key ++ ':' :: write value ++ ',' :: writeFields (next :: fields) := rfl

/-- The compact form as a text. -/
def compact (document : Json) : String :=
  String.ofList document.write

/-- The start of a line at a depth. -/
def newline (depth : Nat) : List Char :=
  '\n' :: List.replicate (2 * depth) ' '

mutual

/-- The indented form at a depth. -/
def writeIndented (depth : Nat) : Json → List Char
  | .array [] => ['[', ']']
  | .array items =>
    '[' :: newline (depth + 1) ++ indentedItems (depth + 1) items ++ newline depth ++ [']']
  | .object [] => ['\x7b', '\x7d']
  | .object fields =>
    '\x7b' :: newline (depth + 1) ++ indentedFields (depth + 1) fields ++ newline depth ++ ['\x7d']
  | leaf => writeLeaf leaf

/-- Items on lines of their own. -/
def indentedItems (depth : Nat) : List Json → List Char
  | [] => []
  | [item] => writeIndented depth item
  | item :: rest => writeIndented depth item ++ ',' :: newline depth ++ indentedItems depth rest

/-- Fields on lines of their own, with a space behind the colon. -/
def indentedFields (depth : Nat) : List (String × Json) → List Char
  | [] => []
  | [(key, value)] => writeString key ++ ':' :: ' ' :: writeIndented depth value
  | (key, value) :: rest =>
    writeString key ++ ':' :: ' ' :: writeIndented depth value ++
      ',' :: newline depth ++ indentedFields depth rest

end

/-- The indented form as a text. -/
def indented (document : Json) : String :=
  String.ofList (document.writeIndented 0)

end Pushdown.Json
