import Mathlib
import Pushdown.Predicate
import Pushdown.Proofs.Number.Digits

/-!
# What escaping changes

The escaped style differs from the verbatim one inside quoted texts only, and there by a second
quote beside each single quote. Two renderings of one list of qualifiers are therefore compared as
a text and the same text with some of its quotes doubled (`Doubles`), which goes through literals,
conditions and the joined text alike, so the lengths tell how many were doubled. Main statement:
`render_escaped`.
-/

namespace Pushdown

open Number (padded isDigit_of_mem_padded)
open Time (Instant)

/-! ## Doubled quotes -/

/-- The second text is the first with so many of its single quotes written twice. -/
inductive Doubles : Nat → List Char → List Char → Prop
  | nil : Doubles 0 [] []
  | char {n s t} (c : Char) : Doubles n s t → Doubles n (c :: s) (c :: t)
  | quote {n s t} : Doubles n s t → Doubles (n + 1) ('\'' :: s) ('\'' :: '\'' :: t)

namespace Doubles

variable {n m : Nat} {s t s' t' : List Char}

theorem refl (s : List Char) : Doubles 0 s s := by
  induction s with
  | nil => exact nil
  | cons c s ih => exact char c ih

theorem append (h : Doubles n s t) (h' : Doubles m s' t') :
    Doubles (n + m) (s ++ s') (t ++ t') := by
  induction h with
  | nil => rwa [Nat.zero_add]
  | char c _ ih => exact char c ih
  | @quote n _ _ _ ih =>
    rw [Nat.add_right_comm]
    exact quote ih

theorem length (h : Doubles n s t) : t.length = s.length + n := by
  induction h with
  | nil => rfl
  | char c _ ih => simp only [List.length_cons, ih]; omega
  | quote _ ih => simp only [List.length_cons, ih]; omega

/-- A quote is one byte, so the bytes are as many more as the characters. -/
theorem utf8Len (h : Doubles n s t) : String.utf8Len t = String.utf8Len s + n := by
  induction h with
  | nil => rfl
  | char c _ ih => simp only [String.utf8Len_cons, ih]; omega
  | quote _ ih =>
    have hbyte : Char.utf8Size '\'' = 1 := rfl
    simp only [String.utf8Len_cons, ih, hbyte]
    omega

/-- One doubled quote anywhere makes another text: nothing behind it can make up for it. -/
theorem eq_iff (h : Doubles n s t) : t = s ↔ n = 0 := by
  constructor
  · intro heq
    have hlength := h.length
    rw [heq] at hlength
    omega
  · intro hn
    induction h with
    | nil => rfl
    | char c _ ih => rw [ih hn]
    | quote => exact absurd hn (Nat.succ_ne_zero _)

end Doubles

theorem doubles_doubleQuotes (s : List Char) : Doubles (s.count '\'') s (doubleQuotes s) := by
  induction s with
  | nil => exact .nil
  | cons c s ih =>
    rw [doubleQuotes]
    split
    case isTrue hc =>
      subst hc
      rw [List.count_cons_self]
      exact ih.quote
    case isFalse hc =>
      rw [List.count_cons_of_ne hc]
      exact ih.char c

/-! ## Literals -/

/-- The text between the quotes of a literal, if anyone can choose it: that of a timestamp is made
of numbers. -/
def Literal.quotedText? : Literal → Option String
  | .string s => some s
  | .inet s => some s
  | .json document => some document.compact
  | _ => none

/-- How many single quotes a text has. -/
def quotesIn (text : String) : Nat :=
  text.toList.count '\''

/-- The texts of qualifiers that stand between quotes, in their order. Those in a list are none of
them, since it is not rendered. -/
def quotedTexts (quals : List Qualifier) : List String :=
  quals.filterMap fun q => q.value.bind Literal.quotedText?

/-- How many single quotes the quoted texts of qualifiers have in all. -/
def quotesAmong (quals : List Qualifier) : Nat :=
  ((quotedTexts quals).map quotesIn).sum

theorem quote_notMem_padded (width n : Nat) : '\'' ∉ padded width n :=
  fun h => absurd (isDigit_of_mem_padded _ h) (by decide)

theorem quote_notMem_writeYear (year : Int) : '\'' ∉ Instant.writeYear year := by
  unfold Instant.writeYear
  split
  · exact quote_notMem_padded _ _
  · -- A year that is not of four digits has a sign.
    simp only [List.mem_cons, quote_notMem_padded, or_false]
    split <;> decide

theorem quote_notMem_writeSeconds (i : Instant) : '\'' ∉ i.writeSeconds := by
  simp [Instant.writeSeconds, Instant.writeWith, Instant.writeDate, Instant.writeClock,
    quote_notMem_padded, quote_notMem_writeYear]

namespace QuoteStyle

theorem doubles_quote (s : List Char) :
    Doubles (s.count '\'') (verbatim.quote s) (escaped.quote s) :=
  ((doubles_doubleQuotes s).append (.refl ['\''])).char '\''

theorem doubles_literal (l : Literal) :
    Doubles ((l.quotedText?.map quotesIn).getD 0) (verbatim.literal l) (escaped.literal l) := by
  cases l with
  | bool b => cases b <;> exact .refl _
  | int n => exact .refl _
  | double x => exact .refl _
  | string s => exact doubles_quote _
  | inet s => exact doubles_quote _
  | json document =>
    show Doubles (document.compact.toList.count '\'') _ _
    rw [Json.compact, String.toList_ofList]
    exact doubles_quote _
  | timestamp i =>
    have h := doubles_quote i.writeSeconds
    rwa [List.count_eq_zero_of_not_mem (quote_notMem_writeSeconds i)] at h
  | list items => exact .refl _

/-! ## Conditions -/

theorem doubles_condition (q : Qualifier) :
    Doubles (quotesAmong [q]) (verbatim.condition q) (escaped.condition q) := by
  obtain ⟨column, operator, value⟩ := q
  cases value with
  | none => exact .refl _
  | some l =>
    have h := (Doubles.refl (column.toList ++ ' ' :: operator.sql.toList)).append
      ((doubles_literal l).char ' ')
    rw [Nat.zero_add] at h
    have hcount : quotesAmong [⟨column, operator, some l⟩] =
        (l.quotedText?.map quotesIn).getD 0 := by
      cases htext : l.quotedText? <;> simp [quotesAmong, quotedTexts, htext]
    rwa [hcount]

theorem quotesAmong_cons (q : Qualifier) (quals : List Qualifier) :
    quotesAmong (q :: quals) = quotesAmong [q] + quotesAmong quals := by
  unfold quotesAmong quotedTexts
  rw [← List.singleton_append, List.filterMap_append, List.map_append, List.sum_append]

theorem doubles_conditions (quals : List Qualifier) :
    Doubles (quotesAmong quals) (verbatim.conditions quals) (escaped.conditions quals) := by
  induction quals with
  | nil => exact .nil
  | cons q rest ih =>
    cases rest with
    | nil => exact doubles_condition q
    | cons next rest =>
      rw [quotesAmong_cons]
      exact ((doubles_condition q).append (.refl " AND ".toList)).append ih

theorem quotesAmong_eq_zero_iff (quals : List Qualifier) :
    quotesAmong quals = 0 ↔ ∀ text ∈ quotedTexts quals, '\'' ∉ text.toList := by
  simp [quotesAmong, quotesIn, List.sum_eq_zero_iff, List.count_eq_zero]

/-- The escaped text is the verbatim one with so many of its quotes doubled as the quoted texts have.
So both styles render the same just if no quoted text has a single quote, and else the escaped text
is longer, by one character and one byte for each of them. -/
theorem render_escaped (quals : List Qualifier) :
    Doubles (quotesAmong quals) (verbatim.render quals).toList (escaped.render quals).toList ∧
      (escaped.render quals = verbatim.render quals ↔
        ∀ text ∈ quotedTexts quals, '\'' ∉ text.toList) ∧
      (escaped.render quals).length = (verbatim.render quals).length + quotesAmong quals ∧
      (escaped.render quals).utf8ByteSize =
        (verbatim.render quals).utf8ByteSize + quotesAmong quals := by
  have h := doubles_conditions quals
  simp only [render, String.toList_ofList, String.length_ofList, String.utf8ByteSize_ofList,
    String.ofList_inj]
  refine ⟨h, ?_, h.length, h.utf8Len⟩
  rw [← quotesAmong_eq_zero_iff]
  exact h.eq_iff

end QuoteStyle

end Pushdown
