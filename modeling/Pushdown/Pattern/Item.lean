import Pushdown.Text.Backslash

/-!
# Items of a pattern

A pattern is a sequence of items. A star stands for any run of characters other than the slash, a
question mark for one such character, a class in brackets for one character that lies in one of its
ranges (or, behind a caret, in none of them) and a backslash takes the meaning from the character
behind it. Every other character stands for itself. Reading goes in two steps: backslashes are taken
first, so that afterwards a character is known to be plain or escaped.
-/

namespace Pushdown.Pattern

open Text.Backslash (Token tokens?)

/-- One range of a class: a character of its own, or the characters from one to another by their
code points, the ends included. -/
inductive Range where
  | single (c : Char)
  | between (low high : Char)
  deriving DecidableEq, Repr

/-- One item of a pattern. -/
inductive Item where
  | anyRun
  | anyOne
  | set (negated : Bool) (ranges : List Range)
  | exactly (c : Char)
  deriving DecidableEq, Repr

mutual

/-- The items of tokens. -/
def items? : List Token → Option (List Item)
  | [] => some []
  | ⟨'*', false⟩ :: rest => (items? rest).map (.anyRun :: ·)
  | ⟨'?', false⟩ :: rest => (items? rest).map (.anyOne :: ·)
  | ⟨'[', false⟩ :: ⟨'^', false⟩ :: rest => setItems? true [] rest
  | ⟨'[', false⟩ :: rest => setItems? false [] rest
  | ⟨c, _⟩ :: rest => (items? rest).map (.exactly c :: ·)

/-- The items of tokens that go on inside a class of which the given ranges have been read. The
bracket that closes a class needs a range before it, and a dash behind a character always starts a
range with two ends. -/
def setItems? (negated : Bool) (ranges : List Range) : List Token → Option (List Item)
  | [] => none
  | ⟨']', false⟩ :: rest =>
    if ranges.isEmpty then none else (items? rest).map (.set negated ranges :: ·)
  | _ :: ⟨'-', false⟩ :: [] => none
  | _ :: ⟨'-', false⟩ :: ⟨']', false⟩ :: _ => none
  | low :: ⟨'-', false⟩ :: high :: rest =>
    if high.char < low.char then none
    else setItems? negated (ranges ++ [.between low.char high.char]) rest
  | single :: rest => setItems? negated (ranges ++ [.single single.char]) rest

end

theorem items?_class {rest : List Token} (hcaret : ∀ ts, rest ≠ ⟨'^', false⟩ :: ts) :
    items? (⟨'[', false⟩ :: rest) = setItems? false [] rest := by
  rw [items?]
  exact hcaret

theorem items?_exactly {c : Char} {escaped : Bool}
    (h : escaped = true ∨ c ∉ ['*', '?', '[']) (rest : List Token) :
    items? (⟨c, escaped⟩ :: rest) = (items? rest).map (.exactly c :: ·) := by
  have hne : ∀ d ∈ ['*', '?', '['], c = d → escaped = false → False := by
    rintro d hd rfl rfl
    exact absurd hd (h.resolve_left Bool.false_ne_true)
  rw [items?]
  · exact hne '*' (by decide)
  · exact hne '?' (by decide)
  · exact fun _ _ => hne '[' (by decide)
  · exact hne '[' (by decide)

theorem setItems?_close (negated : Bool) (ranges : List Range) (rest : List Token) :
    setItems? negated ranges (⟨']', false⟩ :: rest) =
      if ranges.isEmpty then none else (items? rest).map (.set negated ranges :: ·) :=
  rfl

/-- A dash that no character follows. -/
theorem setItems?_halfRange {negated : Bool} {ranges : List Range} {low : Token} {rest : List Token}
    (hlow : low ≠ ⟨']', false⟩) (hrest : rest = [] ∨ ∃ ts, rest = ⟨']', false⟩ :: ts) :
    setItems? negated ranges (low :: ⟨'-', false⟩ :: rest) = none := by
  rcases hrest with rfl | ⟨ts, rfl⟩
  · rw [setItems?]
    exact hlow
  · rw [setItems?]
    exact hlow

theorem setItems?_range {negated : Bool} {ranges : List Range} {low high : Token}
    (hlow : low ≠ ⟨']', false⟩) (hhigh : high ≠ ⟨']', false⟩) (rest : List Token) :
    setItems? negated ranges (low :: ⟨'-', false⟩ :: high :: rest) =
      if high.char < low.char then none
      else setItems? negated (ranges ++ [.between low.char high.char]) rest := by
  rw [setItems?]
  · exact hlow
  · exact hhigh

theorem setItems?_single {negated : Bool} {ranges : List Range} {single : Token} {rest : List Token}
    (hsingle : single ≠ ⟨']', false⟩) (hdash : ∀ ts, rest ≠ ⟨'-', false⟩ :: ts) :
    setItems? negated ranges (single :: rest) =
      setItems? negated (ranges ++ [.single single.char]) rest := by
  rw [setItems?]
  · exact hsingle
  · exact hdash []
  · exact fun ts => hdash (⟨']', false⟩ :: ts)
  · exact fun high ts => hdash (high :: ts)

end Pushdown.Pattern
