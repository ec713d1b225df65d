import Pushdown.Text.Backslash

/-!
# Regular expressions

An expression is a sequence of pieces: the two anchors and classes of characters that are taken
once, at most once or any number of times. A character stands for itself unless it is one of those
with a meaning, and a backslash takes that meaning away. A class stands in brackets; a caret behind
the opening bracket negates it, and a dash between two characters makes a range of them.

Of the syntax only this much is read. Groups, alternatives, counted and repeated repetitions,
classes inside of classes, operators between classes and escapes other than those of marks are known
and refused, so none of them is ever taken for the characters that it is written with. The length of
an expression is not bounded.
-/

namespace Pushdown

namespace Regex

open Text.Backslash (Token)

/-- The characters from one to another by their code points, the ends included. -/
structure Span where
  low : Char
  high : Char
  deriving DecidableEq, Repr

/-- Whether a character lies in a span. -/
def Span.holds (s : Span) (c : Char) : Bool :=
  s.low ≤ c && c ≤ s.high

/-- The characters of spans, or all others. -/
structure CharSet where
  negated : Bool
  spans : List Span
  deriving DecidableEq, Repr

namespace CharSet

/-- Whether a character is in a set. -/
def holds (s : CharSet) (c : Char) : Bool :=
  s.spans.any (·.holds c) != s.negated

/-- The set of one character. -/
def only (c : Char) : CharSet :=
  ⟨false, [⟨c, c⟩]⟩

/-- The set of all characters but one. -/
def allBut (c : Char) : CharSet :=
  ⟨true, [⟨c, c⟩]⟩

end CharSet

/-- One piece of an expression. -/
inductive Piece where
  /-- the start of the text -/
  | start
  /-- the end of the text -/
  | finish
  | once (set : CharSet)
  | optional (set : CharSet)
  | many (set : CharSet)
  deriving DecidableEq, Repr

/-! ## Escapes -/

/-- The characters that can have a meaning in an expression. -/
def marks : List Char :=
  ['\\', '.', '+', '*', '?', '(', ')', '|', '[', ']', '{', '}', '^', '$', '#', '&', '-', '~']

/-- The text of a character that is to stand for itself. -/
def escape (c : Char) : List Char :=
  if c ∈ marks then ['\\', c] else [c]

/-- Whether a character stands for itself behind a backslash. Letters, digits and angles make
escapes with a meaning of their own there. -/
def isEscapable (c : Char) : Bool :=
  c.toNat < 128 && !c.isAlphanum && c ≠ '<' && c ≠ '>'

/-! ## Reading -/

/-- The pieces behind a quantifier, the last one first. It goes with the piece in front of it. -/
def quantify? (mark : Char) : List Piece → Option (List Piece)
  | .once set :: before =>
    match mark with
    | '*' => some (.many set :: before)
    | '+' => some (.many set :: .once set :: before)
    | _ => some (.optional set :: before)
  | _ => none

/-- The pieces behind a token outside of classes, the last one first. -/
def token? (done : List Piece) : Token → Option (List Piece)
  | ⟨c, true⟩ => if isEscapable c then some (.once (.only c) :: done) else none
  | ⟨c, false⟩ =>
    if c = '^' then some (.start :: done)
    else if c = '$' then some (.finish :: done)
    else if c = '.' then some (.once (.allBut '\n') :: done)
    else if c ∈ ['*', '+', '?'] then quantify? c done
    else if c ∈ ['(', ')', '|', '{'] then none
    else some (.once (.only c) :: done)

/-- The character of a token inside of a class. A plain bracket, dash, ampersand or tilde can mean
something else there. -/
def member? : Token → Option Char
  | ⟨c, true⟩ => if isEscapable c then some c else none
  | ⟨c, false⟩ => if c ∈ ['[', ']', '-', '&', '~'] then none else some c

mutual

/-- The pieces of tokens behind those that have been read, of which the last comes first. -/
def pieces? (done : List Piece) : List Token → Option (List Piece)
  | [] => some done.reverse
  | ⟨'[', false⟩ :: ⟨'^', false⟩ :: rest => class? true [] done rest
  | ⟨'[', false⟩ :: rest => class? false [] done rest
  | t :: rest => (token? done t).bind fun done => pieces? done rest

/-- The pieces of tokens that go on inside of a class of which the given spans have been read. The
bracket that closes a class needs a span before it. -/
def class? (negated : Bool) (spans : List Span) (done : List Piece) :
    List Token → Option (List Piece)
  | [] => none
  | ⟨']', false⟩ :: rest =>
    if spans.isEmpty then none else pieces? (.once ⟨negated, spans⟩ :: done) rest
  | low :: ⟨'-', false⟩ :: high :: rest =>
    match member? low, member? high with
    | some low, some high =>
      if high < low then none else class? negated (spans ++ [⟨low, high⟩]) done rest
    | _, _ => none
  | single :: rest =>
    match member? single with
    | some c => class? negated (spans ++ [⟨c, c⟩]) done rest
    | none => none

end

end Regex

/-- A regular expression. -/
structure Regex where
  pieces : List Regex.Piece
  deriving DecidableEq, Repr

/-- Reads an expression. -/
def Regex.read? (source : List Char) : Option Regex :=
  ((Text.Backslash.tokens? source).bind (pieces? [])).map (⟨·⟩)

end Pushdown
