/-!
# Characters behind backslashes

In patterns and in expressions a backslash takes its meaning from the character behind it. A text is
cut into tokens first, so that afterwards a character is known to be plain or escaped.
-/

namespace Pushdown.Text.Backslash

/-- A character that is plain or stands behind a backslash. -/
structure Token where
  char : Char
  escaped : Bool
  deriving DecidableEq, Repr

/-- The tokens of a text; a backslash at the end has nothing to escape. -/
def tokens? : List Char → Option (List Token)
  | [] => some []
  | '\\' :: [] => none
  | '\\' :: c :: rest => (tokens? rest).map (⟨c, true⟩ :: ·)
  | c :: rest => (tokens? rest).map (⟨c, false⟩ :: ·)

end Pushdown.Text.Backslash
