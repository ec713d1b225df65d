import Pushdown.Text.Hex
import Pushdown.Yaml.Place

/-!
# YAML scalars

A scalar may run over several lines. White space around a line break is dropped, a line feed comes
to a space, and of several breaks in a row a line feed at the front is dropped; separators of lines
and paragraphs always stay. Between double quotes a backslash spells a character or takes a line
break out, and between single quotes two of them spell one. A scalar without quotes ends at a colon
before white space, at a comment and, inside brackets or braces, at the characters that divide their
items, before which no colon may stand there.
-/

namespace Pushdown.Yaml

/-! ## Line breaks -/

/-- What a line break comes to. -/
def firstBreak (c : Char) : List Char :=
  if c = '\n' then [' '] else [c]

/-- What line breaks come to after one more of them. -/
def oneMoreBreak (breaks : List Char) (c : Char) : List Char :=
  if breaks = [' '] then [c] else breaks ++ [c]

/-! ## Scalars between quotes -/

/-- A piece of a scalar between quotes. -/
inductive Piece where
  | char (c : Char)
  | blank (c : Char)
  | lineBreak (c : Char)
  /-- a line break that a backslash takes out -/
  | noBreak
  deriving DecidableEq, Repr

mutual

/-- The characters of pieces behind white space on the same line. -/
def joinPieces (blanks : List Char) : List Piece → List Char
  | [] => blanks
  | .char c :: rest => blanks ++ c :: joinPieces [] rest
  | .blank c :: rest => joinPieces (blanks ++ [c]) rest
  | .lineBreak c :: rest => joinLines (firstBreak c) rest
  | .noBreak :: rest => blanks ++ joinLines [] rest

/-- The characters of pieces behind line breaks that come to the given characters so far. -/
def joinLines (breaks : List Char) : List Piece → List Char
  | [] => breaks
  | .char c :: rest => breaks ++ c :: joinPieces [] rest
  | .blank _ :: rest => joinLines breaks rest
  | .lineBreak c :: rest => joinLines (oneMoreBreak breaks c) rest
  | .noBreak :: rest => breaks ++ joinLines [] rest

end

/-- The text of pieces. -/
def pieceText (pieces : List Piece) : String :=
  String.ofList (joinPieces [] pieces)

/-- A character as it stands in the text. -/
def Piece.ofChar (c : Char) : Piece :=
  if isBlank c then .blank c else if isBreak c then .lineBreak c else .char c

/-- One more piece in front of what is read next. -/
def addPiece (piece : Piece) (next : Option (List Piece × List Char)) :
    Option (List Piece × List Char) :=
  next.map fun (pieces, rest) => (piece :: pieces, rest)

/-- Reads the pieces of a scalar behind its opening single quote. -/
def readSingle : List Char → Option (List Piece × List Char)
  | [] => none
  | '\'' :: '\'' :: rest => addPiece (.char '\'') (readSingle rest)
  | '\'' :: rest => some ([], rest)
  | c :: rest =>
    if isBreak c && startsMarker rest then none else addPiece (.ofChar c) (readSingle rest)

/-- The character that a backslash and a character spell. -/
def escaped? : Char → Option Char
  | '0' => some '\x00'
  | 'a' => some '\x07'
  | 'b' => some '\x08'
  | 't' => some '\t'
  | '\t' => some '\t'
  | 'n' => some '\n'
  | 'v' => some '\x0b'
  | 'f' => some '\x0c'
  | 'r' => some '\r'
  | 'e' => some '\x1b'
  | ' ' => some ' '
  | '"' => some '"'
  | '/' => some '/'
  | '\\' => some '\\'
  | 'N' => some '\u0085'
  | '_' => some '\u00a0'
  | 'L' => some '\u2028'
  | 'P' => some '\u2029'
  | _ => none

/-- The number that hexadecimal digits spell on top of the digits before them. -/
def hexNumber? (n : Nat) : List Char → Option Nat
  | [] => some n
  | c :: rest => do hexNumber? (16 * n + (← Text.Hex.digitValue? c)) rest

/-- The character whose number hexadecimal digits spell. -/
def hexChar? (ds : List Char) : Option Char := do
  let n ← hexNumber? 0 ds
  if n.isValidChar then some (Char.ofNat n) else none

/-- Puts the character of an escape, if it spells one, in front of what is read next. -/
def addEscape (c : Option Char) (next : Option (List Piece × List Char)) :
    Option (List Piece × List Char) :=
  c.bind fun c => addPiece (.char c) next

/-- Reads the pieces of a scalar behind its opening double quote. -/
def readDouble : List Char → Option (List Piece × List Char)
  | [] => none
  | '"' :: rest => some ([], rest)
  | '\\' :: 'x' :: a :: b :: rest => addEscape (hexChar? [a, b]) (readDouble rest)
  | '\\' :: 'u' :: a :: b :: c :: d :: rest => addEscape (hexChar? [a, b, c, d]) (readDouble rest)
  | '\\' :: 'U' :: a :: b :: c :: d :: e :: f :: g :: h :: rest =>
    addEscape (hexChar? [a, b, c, d, e, f, g, h]) (readDouble rest)
  | '\\' :: c :: rest =>
    if !isBreak c then addEscape (escaped? c) (readDouble rest)
    else if startsMarker rest then none
    else addPiece .noBreak (readDouble rest)
  | c :: rest =>
    if isBreak c && startsMarker rest then none else addPiece (.ofChar c) (readDouble rest)

/-! ## Scalars without quotes -/

/-- The characters that divide lists and maps between brackets and braces. -/
def isDivider (c : Char) : Bool :=
  [',', '[', ']', '\x7b', '\x7d'].contains c

/-- The characters that start something else than a scalar without quotes. -/
def isIndicator (c : Char) : Bool :=
  isDivider c || ['#', '&', '*', '!', '|', '>', '\'', '"', '%', '@', '\x60'].contains c

/-- Whether a scalar without quotes starts here. Inside brackets or braces a colon and a question
mark never start one. -/
def startsPlain (inside : Bool) : List Char → Bool
  | [] => false
  | c :: rest =>
    if isBlank c || isBreak c || isIndicator c then false
    else if c == '-' then !atGap rest
    else if c == '?' || c == ':' then !inside && !atGap rest
    else true

/-- Whether a word of a scalar without quotes ends before a character. -/
def endsWord (inside : Bool) (c : Char) (rest : List Char) : Bool :=
  isBlank c || isBreak c || (inside && isDivider c) || (c == ':' && atGap rest)

/-- Whether a colon inside brackets or braces may not stand in front of a text. -/
def refusesColon (rest : List Char) : Bool :=
  rest.head?.any fun c => isDivider c || c == '?'

/-- Splits a text behind a word of a scalar without quotes. -/
def splitWord? (inside : Bool) : List Char → Option (List Char × List Char)
  | [] => some ([], [])
  | c :: rest =>
    if endsWord inside c rest then some ([], c :: rest)
    else if inside && c == ':' && refusesColon rest then none
    else (splitWord? inside rest).map fun (word, rest) => (c :: word, rest)

/-- White space behind a word of a scalar without quotes. -/
structure Gap where
  /-- the characters it comes to if another word follows -/
  text : List Char
  behind : Place

/-- The gap that goes on behind line breaks. No tab may stand where the line has to be indented. -/
def Gap.behindBreak? (indent : Nat) (breaks : List Char) (column : Nat) : List Char → Option Gap
  | [] => some ⟨breaks, ⟨some column, []⟩⟩
  | c :: rest =>
    if isBreak c then behindBreak? indent (oneMoreBreak breaks c) 0 rest
    else if c = '\t' && column < indent then none
    else if isBlank c then behindBreak? indent breaks (column + 1) rest
    else some ⟨breaks, ⟨some column, c :: rest⟩⟩

/-- The gap at the start of a text. -/
def Gap.ofText? (indent : Nat) (s : List Char) : Option Gap :=
  let onLine : Gap := ⟨s.takeWhile isBlank, ⟨none, s.dropWhile isBlank⟩⟩
  match onLine.behind.rest with
  | [] => some onLine
  | c :: rest => if isBreak c then behindBreak? indent (firstBreak c) 0 rest else some onLine

/-- Whether a scalar without quotes goes on behind a gap. Outside of brackets and braces the next
line has to be indented far enough. -/
def Gap.joins (gap : Gap) (inside : Bool) (indent : Nat) : Bool :=
  match gap.behind.rest with
  | [] => false
  | c :: rest =>
    c != '#' && !endsWord inside c rest && !gap.behind.isEnd &&
      (inside || gap.behind.column.all (indent ≤ ·))

/-- Splits a text behind a scalar without quotes of at most so many words more than one, and behind
the white space that follows it. -/
def splitWords? (inside : Bool) (indent : Nat) :
    (words : Nat) → List Char → Option (List Char × Place)
  | 0, s => (splitWord? inside s).map fun (word, rest) => (word, ⟨none, rest⟩)
  | words + 1, s => do
    let (word, rest) ← splitWord? inside s
    let gap ← Gap.ofText? indent rest
    if gap.joins inside indent then
      let (more, behind) ← splitWords? inside indent words gap.behind.rest
      return (word ++ gap.text ++ more, behind)
    else return (word, gap.behind)

/-- Splits a text behind a scalar without quotes and the white space that follows it. Outside of
brackets and braces its lines are indented by at least `indent`, and everywhere no tab may stand in
front of that column. -/
def splitPlain? (inside : Bool) (indent : Nat) (s : List Char) : Option (List Char × Place) :=
  splitWords? inside indent s.length s

end Pushdown.Yaml
