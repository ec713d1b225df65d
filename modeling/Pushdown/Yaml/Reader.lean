import Pushdown.Yaml.Basic
import Pushdown.Yaml.Scalar

/-!
# Reading YAML

The documents that are read have lists and maps in brackets and braces or by indentation, scalars
with and without quotes, and comments. Anchors, tags, directives and block scalars are refused, as
is a text of more than one document. Inside brackets and braces line breaks are mere white space;
outside, the column of the first character of a line says which list or map it belongs to. A key
stands on one line with the colon behind it, or behind a question mark.
-/

namespace Pushdown.Yaml

/-- A reader takes what it reads from the front of a text and gives back the rest. -/
abbrev Reader (α : Type) := List Char → Option (α × List Char)

/-- How many bytes a key may take, with its quotes and the white space between it and its colon. -/
def keyLimit : Nat :=
  1024

/-- Whether a piece of a text is short enough for a key and stands on one line. -/
def fitsKey (written : List Char) : Bool :=
  !written.any isBreak && (String.ofList written).utf8ByteSize ≤ keyLimit

/-- The text behind the colon of a key that was read from `s` up to `rest`. Outside of brackets and
braces white space has to follow the colon. -/
def behindColon? (inside : Bool) (s rest : List Char) : Option (List Char) :=
  match rest.dropWhile isBlank with
  | ':' :: value =>
    let written := s.take (s.length - (value.length + 1))
    if fitsKey written && (inside || atGap value) then some value else none
  | _ => none

/-- Reads a scalar without quotes and the white space behind it. -/
def readPlain (inside : Bool) (indent : Nat) (s : List Char) : Option (Yaml × Place) :=
  if startsPlain inside s then
    (splitPlain? inside indent s).map fun (text, p) => (.plain (String.ofList text), p)
  else none

/-! ## Inside brackets and braces -/

/-- A text inside brackets or braces without the white space and comments it starts with. Nothing is
left of it where the document ends. -/
def skipSpace (s : List Char) : List Char :=
  let p := Place.skip true false none s
  if p.isEnd then [] else p.rest

mutual

/-- Reads a document inside brackets or braces, or one that they hold. -/
def readInside (indent : Nat) : (fuel : Nat) → Reader Yaml
  | 0, _ => none
  | fuel + 1, s =>
    match s with
    | '[' :: rest =>
      (readListed indent fuel (skipSpace rest)).map fun (items, rest) => (.list items, rest)
    | '\x7b' :: rest =>
      (readMapped indent fuel (skipSpace rest)).map fun (entries, rest) => (.map entries, rest)
    | '"' :: rest => (readDouble rest).map fun (pieces, rest) => (.quoted (pieceText pieces), rest)
    | '\'' :: rest => (readSingle rest).map fun (pieces, rest) => (.quoted (pieceText pieces), rest)
    | s => (readPlain true indent s).map fun (scalar, p) => (scalar, p.rest)

/-- Reads what stands behind the colon of a key. -/
def readMeant (indent : Nat) : (fuel : Nat) → Reader Yaml
  | 0, _ => none
  | fuel + 1, s =>
    match skipSpace s with
    | ',' :: rest => some (empty, ',' :: rest)
    | ']' :: rest => some (empty, ']' :: rest)
    | '\x7d' :: rest => some (empty, '\x7d' :: rest)
    | s => readInside indent fuel s

/-- Reads an entry behind its question mark: a key and, behind a colon, its value. Both may be
missing. In a list, the mark that stands in place of a key is passed over. -/
def readMarked (indent : Nat) : (fuel : Nat) → (listed : Bool) → Reader (Yaml × Yaml)
  | 0, _, _ => none
  | fuel + 1, listed, s => do
    let (key, rest) ← match skipSpace s with
      | ':' :: rest => some (empty, if listed then rest else ':' :: rest)
      | ',' :: rest => some (empty, if listed then rest else ',' :: rest)
      | '\x7d' :: rest => some (empty, '\x7d' :: rest)
      | s => readInside indent fuel s
    match skipSpace rest with
    | ':' :: value => (readMeant indent fuel value).map fun (value, rest) => ((key, value), rest)
    | rest => some ((key, empty), rest)

/-- Reads the items of a list from the start of an item, or from the bracket that closes the list,
to the end of that bracket. An item with a colon behind it, or behind a question mark, is the key of
a map of one entry. -/
def readListed (indent : Nat) : (fuel : Nat) → Reader (List Yaml)
  | 0, _ => none
  | fuel + 1, s =>
    match s with
    | ']' :: rest => some ([], rest)
    | s => do
      let (item, rest) ← match s with
        | '?' :: rest => (readMarked indent fuel true rest).map fun (e, rest) => (.map [e], rest)
        | s => do
          let (key, rest) ← readInside indent fuel s
          match behindColon? true s rest with
          | none => some (key, rest)
          | some value =>
            (readMeant indent fuel value).map fun (value, rest) => (.map [(key, value)], rest)
      match skipSpace rest with
      | ']' :: rest => return ([item], rest)
      | ',' :: rest =>
        let (items, rest) ← readListed indent fuel (skipSpace rest)
        return (item :: items, rest)
      | _ => none

/-- Reads the entries of a map from the start of a key, or from the brace that closes the map, to
the end of that brace. A key without a colon stands for nothing. -/
def readMapped (indent : Nat) : (fuel : Nat) → Reader (List (Yaml × Yaml))
  | 0, _ => none
  | fuel + 1, s =>
    match s with
    | '\x7d' :: rest => some ([], rest)
    | s => do
      let (entry, rest) ← match s with
        | '?' :: rest => readMarked indent fuel false rest
        | s => do
          let (key, rest) ← readInside indent fuel s
          match behindColon? true s rest with
          | none => some ((key, empty), rest)
          | some value =>
            (readMeant indent fuel value).map fun (value, rest) => ((key, value), rest)
      match skipSpace rest with
      | '\x7d' :: rest => return ([entry], rest)
      | ',' :: rest =>
        let (entries, rest) ← readMapped indent fuel (skipSpace rest)
        return (entry :: entries, rest)
      | _ => none

end

/-! ## By indentation -/

/-- Reads a scalar or what stands in brackets or braces. Further lines of a scalar without quotes
are indented by at least `indent`. -/
def readInline (indent : Nat) (s : List Char) : Option (Yaml × Place) :=
  if startsPlain false s then readPlain false indent s
  else (readInside indent (3 * s.length + 3) s).map fun (document, rest) => (document, ⟨none, rest⟩)

mutual

/-- Reads the document at a place, up to a place behind it. -/
def readNode : (fuel indent : Nat) → Place → Option (Yaml × Place)
  | 0, _, _ => none
  | fuel + 1, indent, p =>
    if p.atMark '-' then do
      let (items, q) ← readItems fuel (← p.column) p
      return (.list items, q)
    else if p.atMark '?' then do
      let (entries, q) ← readEntries fuel (← p.column) p
      return (.map entries, q)
    else do
      let (document, q) ← readInline indent p.rest
      if (behindColon? false p.rest q.rest).isNone then return (document, q)
      else
        let (entries, q) ← readEntries fuel (← p.column) p
        return (.map entries, q)

/-- Reads the items of a list of a column from the dash of one on. -/
def readItems : (fuel column : Nat) → Place → Option (List Yaml × Place)
  | 0, _, _ => none
  | fuel + 1, column, p => do
    let p := Place.next ⟨some (column + 1), p.rest.tail⟩
    let (item, q) ← if p.isWithin column then readNode fuel (column + 1) p else some (empty, p)
    if q.next.continues column && q.next.atMark '-' then
      let (items, q) ← readItems fuel column q.next
      return (item :: items, q)
    else return ([item], q.next)

/-- Reads the key or the value at a place of a map of a column. A list may start in the column of
the map. -/
def readPart : (fuel column : Nat) → Place → Option (Yaml × Place)
  | 0, _, _ => none
  | fuel + 1, column, p =>
    if p.isWithin column then readNode fuel (column + 1) p
    else if p.continues column && p.atMark '-' then
      (readItems fuel column p).map fun (items, q) => (.list items, q)
    else some (empty, p)

/-- Reads an entry of a map of a column: a key with a colon behind it and a value, or a key behind a
question mark and, in a line of its own, a value behind a colon. -/
def readEntry : (fuel column : Nat) → Place → Option ((Yaml × Yaml) × Place)
  | 0, _, _ => none
  | fuel + 1, column, p =>
    if p.atMark '?' then do
      let (key, q) ← readPart fuel column (Place.next ⟨some (column + 1), p.rest.tail⟩)
      if q.next.continues column && q.next.atMark ':' then
        let behind := Place.next ⟨some (column + 1), q.next.rest.tail⟩
        (readPart fuel column behind).map fun (value, q) => ((key, value), q)
      else return ((key, empty), q.next)
    else do
      let (key, q) ← readInline (column + 1) p.rest
      let behind := Place.next ⟨none, ← behindColon? false p.rest q.rest⟩
      (readPart fuel column behind).map fun (value, q) => ((key, value), q)

/-- Reads the entries of a map of a column from the start of one on. -/
def readEntries : (fuel column : Nat) → Place → Option (List (Yaml × Yaml) × Place)
  | 0, _, _ => none
  | fuel + 1, column, p => do
    let (entry, q) ← readEntry fuel column p
    if q.next.continues column then
      let (entries, q) ← readEntries fuel column q.next
      return (entry :: entries, q)
    else return ([entry], q.next)

end

/-! ## Texts -/

/-- The characters that may stand in a text. -/
def isAllowed (c : Char) : Bool :=
  let n := c.toNat
  c == '\t' || c == '\n' || c == '\r' || (0x20 ≤ n && n ≤ 0x7E) || n == 0x85 ||
    (0xA0 ≤ n && n ≤ 0xFFFD) || 0x10000 ≤ n

/-- A text in which a line feed stands for every line break but the separators of lines and
paragraphs. -/
def unifyBreaks : List Char → List Char
  | [] => []
  | '\r' :: '\n' :: rest => '\n' :: unifyBreaks rest
  | c :: rest => (if c = '\r' || c = '\u0085' then '\n' else c) :: unifyBreaks rest

/-- Whether nothing but at most so many marks of the end of a document, white space and comments is
left at a place. -/
def isLast : (marks : Nat) → Place → Bool
  | 0, p => p.rest.isEmpty
  | marks + 1, p =>
    match p.rest with
    | [] => true
    | '.' :: _ => p.isEnd && isLast marks (Place.next ⟨none, p.rest.drop 3⟩)
    | _ => false

/-- Reads a text of one document; a text without any has the empty one. -/
def read (text : List Char) : Option Yaml := do
  let s := unifyBreaks text
  if !s.all isAllowed then none
  let front := Place.next ⟨some 0, s⟩
  let marked := front.isEnd && front.rest.head? == some '-'
  let p := if marked then Place.next ⟨none, front.rest.drop 3⟩ else front
  let (document, q) ←
    if !p.isEnd then readNode (4 * s.length + 4) 0 p
    else if marked || p.rest.isEmpty then some (empty, p)
    else none
  if isLast s.length q.next then return document else none

end Pushdown.Yaml
