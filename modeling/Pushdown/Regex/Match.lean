import Pushdown.Regex

/-!
# Searching a text

A text is searched from its end to its front. For the text behind the current character it is known
which of the expression's ends match at its start, and one step brings in the character. The work is
the product of the two lengths, whatever the number of repetitions.
-/

namespace Pushdown.Regex

/-- Whether a piece can take nothing, at the start of the text or behind it, and at its end or in
front of it. -/
def Piece.skips (first last : Bool) : Piece → Bool
  | .start => first
  | .finish => last
  | .once _ => false
  | .optional _ => true
  | .many _ => true

/-- Whether a piece takes a character. -/
def Piece.takes (c : Char) : Piece → Bool
  | .start => false
  | .finish => false
  | .once set => set.holds c
  | .optional set => set.holds c
  | .many set => set.holds c

/-- Whether a piece goes on behind a character that it has taken. -/
def Piece.stays : Piece → Bool
  | .many _ => true
  | _ => false

/-- Which ends of an expression, longest first, match at the end of a text. -/
def emptyEnds (first : Bool) : List Piece → List Bool
  | [] => [true]
  | piece :: rest =>
    let ends := emptyEnds first rest
    (piece.skips first true && ends.headD false) :: ends

/-- Which ends of an expression match in front of a character, from the answer for what is behind
it. -/
def stepEnds (first : Bool) (c : Char) : List Piece → List Bool → List Bool
  | [], _ => [true]
  | piece :: rest, behind =>
    let ends := stepEnds first c rest behind.tail
    let taken := piece.takes c && (if piece.stays then behind else behind.tail).headD false
    (taken || (piece.skips first false && ends.headD false)) :: ends

/-- Which ends of an expression match at each place of a text, from its start on. -/
def places (pieces : List Piece) (first : Bool) : List Char → List (List Bool)
  | [] => [emptyEnds first pieces]
  | c :: rest =>
    let behind := places pieces false rest
    stepEnds first c pieces (behind.headD []) :: behind

/-- Whether an expression matches some part of a text. -/
def isMatch (r : Regex) (text : String) : Bool :=
  (places r.pieces true text.toList).any (·.headD false)

end Pushdown.Regex
