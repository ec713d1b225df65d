import Pushdown.Json.Number
import Pushdown.Text.Hex

/-!
# Reading JSON

A reader takes what it reads from the front of a text and gives back the rest. Of two faults the
one further to the front is reported, as a text that ends too early or as one that breaks the
grammar. Arrays and objects nest at most 127 deep.
-/

namespace Pushdown.Json

open Text (Hex.digitValue?)

/-- Characters that may stand between tokens. -/
def isSpace (c : Char) : Bool :=
  c == ' ' || c == '\n' || c == '\t' || c == '\r'

/-- A text without the spaces it starts with. -/
def skipSpace (s : List Char) : List Char :=
  s.dropWhile isSpace

/-- Reads the rest of a word whose first character has been read. -/
def readWord (document : Json) : List Char → List Char → Except ReadError (Json × List Char)
  | [], s => .ok (document, s)
  | _ :: _, [] => .error .unexpectedEnd
  | c :: word, d :: s => if c = d then readWord document word s else .error .malformed

/-- The error of a text that should start with four hexadecimal digits and does not: it ends too
early if it has fewer than four bytes. -/
def hexError (s : List Char) : ReadError :=
  if (Text.Hex.byteChars s).length < 4 then .unexpectedEnd else .malformed

/-- The number of four hexadecimal digits. -/
def fourDigits? (a b c d : Char) : Option Nat := do
  let a ← Hex.digitValue? a
  let b ← Hex.digitValue? b
  let c ← Hex.digitValue? c
  let d ← Hex.digitValue? d
  return ((a * 16 + b) * 16 + c) * 16 + d

/-- The first half of a pair of words that spell one character. -/
def isHighHalf (n : Nat) : Bool :=
  0xD800 ≤ n && n < 0xDC00

/-- The second half of a pair of words that spell one character. -/
def isLowHalf (n : Nat) : Bool :=
  0xDC00 ≤ n && n < 0xE000

/-- The character that two halves spell. -/
def ofHalves (high low : Nat) : Char :=
  Char.ofNat (0x10000 + (high - 0xD800) * 0x400 + (low - 0xDC00))

/-- The character that a backslash and a letter spell. -/
def escaped? : Char → Option Char
  | '"' => some '"'
  | '\\' => some '\\'
  | '/' => some '/'
  | 'b' => some '\x08'
  | 'f' => some '\x0c'
  | 'n' => some '\n'
  | 'r' => some '\r'
  | 't' => some '\t'
  | _ => none

/-- The error of a text behind the first half of a pair that is not followed by a second half. -/
def pairError : List Char → ReadError
  | [] => .unexpectedEnd
  | '\\' :: [] => .unexpectedEnd
  | '\\' :: 'u' :: rest => hexError rest
  | _ => .malformed

/-- One more character in front of what is read next. -/
def andThen (c : Char) (next : Except ReadError (List Char × List Char)) :
    Except ReadError (List Char × List Char) :=
  next.map fun (cs, rest) => (c :: cs, rest)

/-- Reads the characters of a string behind its opening quote. -/
def readChars : List Char → Except ReadError (List Char × List Char)
  | [] => .error .unexpectedEnd
  | '"' :: rest => .ok ([], rest)
  | '\\' :: [] => .error .unexpectedEnd
  | '\\' :: 'u' :: a :: b :: c :: d :: rest =>
    match fourDigits? a b c d with
    | none => .error .malformed
    | some high =>
      if isLowHalf high then .error .malformed
      else if isHighHalf high then
        match rest with
        | '\\' :: 'u' :: a :: b :: c :: d :: rest =>
          match fourDigits? a b c d with
          | none => .error .malformed
          | some low =>
            if isLowHalf low then andThen (ofHalves high low) (readChars rest)
            else .error .malformed
        | rest => .error (pairError rest)
      else andThen (Char.ofNat high) (readChars rest)
  | '\\' :: 'u' :: rest => .error (hexError rest)
  | '\\' :: c :: rest =>
    match escaped? c with
    | none => .error .malformed
    | some c => andThen c (readChars rest)
  | c :: rest => if c.toNat < 32 then .error .malformed else andThen c (readChars rest)

/-- Reads a string behind its opening quote. -/
def readString (s : List Char) : Except ReadError (String × List Char) :=
  (readChars s).map fun (cs, rest) => (String.ofList cs, rest)

mutual

/-- Reads a document. At most `depth` more levels may open. -/
def readValue : (fuel depth : Nat) → List Char → Except ReadError (Json × List Char)
  | 0, _, _ => .error .unexpectedEnd
  | fuel + 1, depth, s =>
    match skipSpace s with
    | [] => .error .unexpectedEnd
    | 'n' :: rest => readWord .null ['u', 'l', 'l'] rest
    | 't' :: rest => readWord (.bool true) ['r', 'u', 'e'] rest
    | 'f' :: rest => readWord (.bool false) ['a', 'l', 's', 'e'] rest
    | '"' :: rest => (readString rest).map fun (text, rest) => (.string text, rest)
    | '-' :: rest => readNumber true rest
    | '[' :: rest =>
      match depth with
      | 0 => .error .malformed
      | depth + 1 =>
        match skipSpace rest with
        | [] => .error .unexpectedEnd
        | ']' :: rest => .ok (.array [], rest)
        | rest => (readItems fuel depth rest).map fun (items, rest) => (.array items, rest)
    | '\x7b' :: rest =>
      match depth with
      | 0 => .error .malformed
      | depth + 1 =>
        match skipSpace rest with
        | [] => .error .unexpectedEnd
        | '\x7d' :: rest => .ok (.object [], rest)
        | rest => (readFields fuel depth rest).map fun (fields, rest) => (ofFields fields, rest)
    | c :: rest => if c.isDigit then readNumber false (c :: rest) else .error .malformed

/-- Reads the items of an array from the start of an item to the closing bracket. -/
def readItems : (fuel depth : Nat) → List Char → Except ReadError (List Json × List Char)
  | 0, _, _ => .error .unexpectedEnd
  | fuel + 1, depth, s => do
    let (item, rest) ← readValue fuel depth s
    match skipSpace rest with
    | [] => .error .unexpectedEnd
    | ']' :: rest => return ([item], rest)
    | ',' :: rest =>
      let (items, rest) ← readItems fuel depth rest
      return (item :: items, rest)
    | _ => .error .malformed

/-- Reads the fields of an object from the start of a field to the closing brace. -/
def readFields : (fuel depth : Nat) → List Char →
    Except ReadError (List (String × Json) × List Char)
  | 0, _, _ => .error .unexpectedEnd
  | fuel + 1, depth, s =>
    match skipSpace s with
    | [] => .error .unexpectedEnd
    | '"' :: rest => do
      let (key, rest) ← readString rest
      match skipSpace rest with
      | [] => .error .unexpectedEnd
      | ':' :: rest =>
        let (value, rest) ← readValue fuel depth rest
        match skipSpace rest with
        | [] => .error .unexpectedEnd
        | '\x7d' :: rest => return ([(key, value)], rest)
        | ',' :: rest =>
          let (fields, rest) ← readFields fuel depth rest
          return ((key, value) :: fields, rest)
        | _ => .error .malformed
      | _ => .error .malformed
    | _ => .error .malformed

end

/-- How many levels a document may nest. -/
def deepest : Nat := 127

/-- Reads a text that is one document, with spaces around it. -/
def read (s : List Char) : Except ReadError Json := do
  let (document, rest) ← readValue (2 * s.length + 2) deepest s
  if (skipSpace rest).isEmpty then return document else .error .malformed

end Pushdown.Json
