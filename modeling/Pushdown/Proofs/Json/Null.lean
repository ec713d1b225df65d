import Mathlib
import Pushdown.Json.Writer
import Pushdown.Proofs.Number.Plain

/-!
# What is written as null

A number of a document is written with digits, signs, points and an `e`, so it is not mistaken for a
word. Main statement: a document is written as `null` just if it is null or a double that is no
finite number (`write_eq_null_iff`).
-/

namespace Pushdown.Number

/-- The characters of a number in a document. -/
def isNumeralChar (c : Char) : Bool :=
  c.isDigit || ['-', '+', '.', 'e'].contains c

variable {ds whole : List Char} {scale : Int}

theorem isNumeralChar_of_isDigit {c : Char} (h : c.isDigit = true) : isNumeralChar c = true := by
  simp [isNumeralChar, h]

/-- What holds of the digits, the signs, the point and the `e` holds of all characters of numbers. -/
theorem forall_isNumeralChar {p : Char → Bool}
    (hdigits : ['0', '1', '2', '3', '4', '5', '6', '7', '8', '9'].all p = true)
    (hsigns : ['-', '+', '.', 'e'].all p = true) : ∀ c, isNumeralChar c = true → p c = true := by
  intro c hc
  simp only [isNumeralChar, Bool.or_eq_true] at hc
  rcases hc with hdigit | hsign
  · exact forall_isDigit hdigits c hdigit
  · exact List.all_eq_true.mp hsigns c (by simpa using hsign)

theorem isNumeralChar_ofInt (n : Int) : ∀ c ∈ ofInt n, isNumeralChar c = true := by
  have hdigits : ∀ c ∈ digits n.natAbs, isNumeralChar c = true :=
    fun c hc => isNumeralChar_of_isDigit (isDigit_of_mem_digits c hc)
  unfold ofInt
  split
  · exact List.forall_mem_cons.mpr ⟨rfl, hdigits⟩
  · exact hdigits

theorem ofInt_ne_nil (n : Int) : ofInt n ≠ [] := by
  unfold ofInt
  split
  · exact List.cons_ne_nil '-' _
  · exact digits_ne_nil _

theorem layPlain_ne_nil (hwhole : whole ≠ []) : layPlain whole ds scale ≠ [] := by
  simp only [layPlain]
  split
  · simp [hwhole]
  split
  · simp
  · simp

theorem layScientific_ne_nil : layScientific ds scale ≠ [] := by
  simp [layScientific]

theorem isNumeralChar_layPlain (hwhole : ∀ c ∈ whole, isNumeralChar c = true)
    (hds : ∀ c ∈ ds, c.isDigit = true) : ∀ c ∈ layPlain whole ds scale, isNumeralChar c = true := by
  have hdigits : ∀ c ∈ ds, isNumeralChar c = true :=
    fun c hc => isNumeralChar_of_isDigit (hds c hc)
  have hzeros : ∀ count, ∀ c ∈ List.replicate count '0', isNumeralChar c = true :=
    fun _ c hc => isNumeralChar_of_isDigit (isDigit_of_mem_zeros c hc)
  unfold layPlain
  simp only
  split
  · intro c hc
    simp only [List.mem_append] at hc
    rcases hc with (hc | hc) | hc
    · exact hdigits c hc
    · exact hzeros _ c hc
    · exact hwhole c hc
  split
  · intro c hc
    simp only [List.mem_append, List.mem_cons] at hc
    rcases hc with hc | rfl | hc
    · exact hdigits c (List.mem_of_mem_take hc)
    · rfl
    · exact hdigits c (List.mem_of_mem_drop hc)
  · intro c hc
    simp only [List.mem_append, List.cons_append, List.mem_cons] at hc
    rcases hc with rfl | rfl | hc | hc
    · rfl
    · rfl
    · exact hzeros _ c hc
    · exact hdigits c hc

theorem isNumeralChar_layScientific (hds : ∀ c ∈ ds, c.isDigit = true) :
    ∀ c ∈ layScientific ds scale, isNumeralChar c = true := by
  have hdigits : ∀ c ∈ ds, isNumeralChar c = true :=
    fun c hc => isNumeralChar_of_isDigit (hds c hc)
  unfold layScientific
  simp only
  intro c hc
  simp only [List.mem_append, List.mem_cons] at hc
  rcases hc with hc | rfl | hc | hc
  · -- the digits with a point behind the first
    split at hc
    · cases hc
    · exact hdigits c hc
    · simp only [List.mem_cons] at hc
      rcases hc with rfl | rfl | hc
      · exact hdigits c List.mem_cons_self
      · rfl
      · exact hdigits c (List.mem_cons_of_mem _ hc)
  · rfl
  · subst hc
    split
    · rfl
    · rfl
  · exact isNumeralChar_of_isDigit (isDigit_of_mem_digits c hc)

theorem isNumeralChar_signed {negative : Bool} {s : List Char}
    (h : ∀ c ∈ s, isNumeralChar c = true) : ∀ c ∈ signed negative s, isNumeralChar c = true := by
  cases negative with
  | false => exact h
  | true =>
    intro c hc
    rcases List.mem_cons.mp hc with rfl | hc
    · rfl
    · exact h c hc

theorem signed_ne_nil {negative : Bool} {s : List Char} (h : s ≠ []) : signed negative s ≠ [] := by
  cases negative with
  | false => exact h
  | true => exact List.cons_ne_nil '-' s

/-- A finite double has a form in documents, and it is made of the characters of numbers. -/
theorem document?_of_isFinite {x : Double} (h : x.isFinite = true) :
    ∃ text, x.document? = some text ∧ text ≠ [] ∧ ∀ c ∈ text, isNumeralChar c = true := by
  cases x with
  | notANumber => cases h
  | infinite negative => cases h
  | finite negative exponent fraction =>
    rw [Double.document?]
    simp only
    have hzero : ∀ c ∈ ['0', '.', '0'], isNumeralChar c = true := by simp [isNumeralChar]
    have hwhole : ∀ c ∈ ['.', '0'], isNumeralChar c = true := by simp [isNumeralChar]
    split
    · exact ⟨_, rfl, signed_ne_nil (List.cons_ne_nil _ _), isNumeralChar_signed hzero⟩
    · refine ⟨_, rfl, signed_ne_nil ?_, isNumeralChar_signed ?_⟩
      · split
        · exact layPlain_ne_nil (List.cons_ne_nil _ _)
        · exact layScientific_ne_nil
      · split
        · exact isNumeralChar_layPlain hwhole isDigit_of_mem_stripZeros
        · exact isNumeralChar_layScientific isDigit_of_mem_stripZeros

theorem document?_of_not_isFinite {x : Double} (h : x.isFinite = false) : x.document? = none := by
  cases x with
  | finite negative exponent fraction => cases h
  | notANumber => rfl
  | infinite negative => rfl

end Pushdown.Number

namespace Pushdown.Json

open Number

/-- The characters of the word `null`. -/
abbrev nullText : List Char :=
  ['n', 'u', 'l', 'l']

theorem ne_nullText_of_numeral {s : List Char} (h : ∀ c ∈ s, isNumeralChar c = true) :
    s ≠ nullText := by
  rintro rfl
  exact absurd (h 'n' List.mem_cons_self) (by decide)

/-- Only null and what is no finite number are written as null. -/
theorem write_eq_null_iff (document : Json) :
    write document = nullText ↔
      document = .null ∨ ∃ x : Double, document = .double x ∧ x.isFinite = false := by
  cases document with
  | null => simp [write, writeLeaf]
  | bool b =>
    cases b with
    | true => simp [write, writeLeaf]
    | false => simp [write, writeLeaf]
  | int n =>
    have hne : write (.int n) ≠ nullText := ne_nullText_of_numeral (isNumeralChar_ofInt n)
    simp [hne]
  | double x =>
    cases hfinite : x.isFinite with
    | true =>
      obtain ⟨text, htext, _, hchars⟩ := document?_of_isFinite hfinite
      have hwrite : write (.double x) = text := by simp [write, writeLeaf, htext]
      simp [hwrite, ne_nullText_of_numeral hchars, hfinite]
    | false => simp [write, writeLeaf, document?_of_not_isFinite hfinite, hfinite]
  | string s => simp [write, writeLeaf, writeString]
  | array items => simp [write]
  | object fields => simp [write]

end Pushdown.Json
