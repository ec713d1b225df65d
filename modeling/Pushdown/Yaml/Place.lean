/-!
# Places in a YAML text

A line ends at a line feed or at a line or paragraph separator. A key of a map and the dash of an
item may start where nothing else stands before them on their line, and the column where they start
says to which map or list they belong. Three dashes or dots at the start of a line end a document. A
byte order mark at the start of a line takes a column and means nothing.
-/

namespace Pushdown.Yaml

/-- The white space that may stand inside a line. -/
def isBlank (c : Char) : Bool :=
  c == ' ' || c == '\t'

/-- The characters that end a line. -/
def isBreak (c : Char) : Bool :=
  c == '\n' || c == '\u2028' || c == '\u2029'

/-- Whether a text starts with white space or is at its end. -/
def atGap : List Char → Bool
  | [] => true
  | c :: _ => isBlank c || isBreak c

/-- Whether a line starts with the mark of the start or of the end of a document. -/
def startsMarker : List Char → Bool
  | '-' :: '-' :: '-' :: rest => atGap rest
  | '.' :: '.' :: '.' :: rest => atGap rest
  | _ => false

/-- Where something may stand. -/
structure Place where
  /-- the column of a key or an item that starts here; behind something else on a line, none may -/
  column : Option Nat
  /-- the text from here on -/
  rest : List Char

namespace Place

/-- The place behind white space and comments; `comment` says whether the text starts inside a
comment. Where a key may start, a tab is white space only inside brackets and braces, and a byte
order mark is white space as the first character of a line. -/
def skip (inside comment : Bool) (column : Option Nat) : List Char → Place
  | [] => ⟨column, []⟩
  | c :: rest =>
    if isBreak c then skip inside false (some 0) rest
    else if comment || c = '#' then skip inside true column rest
    else if c = ' ' || (c = '\t' && (inside || column.isNone)) || (c = '\ufeff' && column == some 0)
      then skip inside false (column.map (· + 1)) rest
    else ⟨column, c :: rest⟩

/-- The next place, outside of brackets and braces, where something stands. -/
def next (p : Place) : Place :=
  skip false false p.column p.rest

/-- Whether a document ends at a place. -/
def isEnd (p : Place) : Bool :=
  p.rest.isEmpty || (p.column == some 0 && startsMarker p.rest)

/-- Whether a mark stands at a place by itself: the dash of an item, the question mark of a key or
the colon of a value. -/
def atMark (p : Place) (mark : Char) : Bool :=
  match p.rest with
  | c :: rest => c == mark && atGap rest
  | [] => false

/-- Whether a list or map of a column goes on at a place. -/
def continues (p : Place) (column : Nat) : Bool :=
  !p.isEnd && p.column == some column

/-- Whether something at a place stands inside a list or map of a column: on the same line, or
indented more. -/
def isWithin (p : Place) (column : Nat) : Bool :=
  !p.isEnd && p.column.all (column < ·)

end Place

end Pushdown.Yaml
