/-!
# White space

White space is the Unicode property White_Space, so it takes in the no-break and the ideographic
space. Texts are trimmed by it at either end. Main statements: what is left of a trimmed text
starts with no white space (`head?_trimStart`) and a text without white space at its start is
left alone (`trimStart_cons`).
-/

namespace Pushdown.Text

/-- The characters of the Unicode property White_Space. -/
def isBlank (c : Char) : Bool :=
  let n := c.toNat
  (9 ≤ n && n ≤ 13) || n == 0x20 || n == 0x85 || n == 0xA0 || n == 0x1680 ||
    (0x2000 ≤ n && n ≤ 0x200A) || n == 0x2028 || n == 0x2029 || n == 0x202F || n == 0x205F ||
    n == 0x3000

/-- A text without the white space it starts with. -/
def trimStart (s : List Char) : List Char :=
  s.dropWhile isBlank

/-- A text without the white space it ends with. -/
def trimEnd (s : List Char) : List Char :=
  (s.reverse.dropWhile isBlank).reverse

/-- A text without the white space at either end. -/
def trim (s : List Char) : List Char :=
  trimEnd (trimStart s)

@[simp] theorem trimStart_nil : trimStart [] = [] := rfl

theorem trimStart_cons {c : Char} (s : List Char) (h : isBlank c = false) :
    trimStart (c :: s) = c :: s := by
  simp [trimStart, h]

theorem head?_trimStart {s : List Char} {c : Char} (h : (trimStart s).head? = some c) :
    isBlank c = false := by
  induction s with
  | nil => simp at h
  | cons d s ih =>
    by_cases hd : isBlank d = true
    · exact ih (by simpa [trimStart, hd] using h)
    · have : (trimStart (d :: s)).head? = some d := by simp [trimStart, hd]
      simp_all

/-- Characters of a word: ASCII letters, digits and the underscore. -/
def isWordChar (c : Char) : Bool :=
  c.isAlphanum || c == '_'

/-- Characters of a bare column or schema name: those of a word and the dollar sign. -/
def isNameChar (c : Char) : Bool :=
  isWordChar c || c == '$'

/-- ASCII letters in capitals, everything else unchanged. -/
def upper (s : List Char) : List Char :=
  s.map Char.toUpper

/-- ASCII letters in small letters, everything else unchanged. -/
def lower (s : List Char) : List Char :=
  s.map Char.toLower

end Pushdown.Text
