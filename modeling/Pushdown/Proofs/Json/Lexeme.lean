import Mathlib
import Pushdown.Json.Reader
import Pushdown.Json.Writer
import Pushdown.Proofs.Number.Digits
import Pushdown.Proofs.Text.Hex

/-!
# Strings and whole numbers of documents

The two kinds of text inside a document that are read character by character. Main statements: a
written string reads back whatever follows it (`readString_writeString`), and so does a written
whole number of a word if what follows does not go on with it (`readNumber_digits`).
-/

namespace Pushdown.Json

open Number (digits ofDigits)
open Text (Hex.digit Hex.digitValue? Hex.digitValue?_digit Stops stops_cons)

/-! ## Strings -/

/-- The four digits of a character below the space. -/
theorem fourDigits?_control {c : Char} (h : c.toNat < 32) :
    fourDigits? '0' '0' (Hex.digit (c.toNat / 16)) (Hex.digit (c.toNat % 16)) = some c.toNat := by
  have hzero : Hex.digitValue? '0' = some 0 := rfl
  have hhigh : Hex.digitValue? (Hex.digit (c.toNat / 16)) = some (c.toNat / 16) :=
    Hex.digitValue?_digit (by omega)
  have hlow : Hex.digitValue? (Hex.digit (c.toNat % 16)) = some (c.toNat % 16) :=
    Hex.digitValue?_digit (by omega)
  simp only [fourDigits?, hzero, hhigh, hlow, Option.bind_eq_bind, Option.bind_some,
    Option.pure_def]
  congr 1
  omega

/-- A written character is read as itself. -/
theorem readChars_writeChar (c : Char) (s : List Char) :
    readChars (writeChar c ++ s) = andThen c (readChars s) := by
  rw [writeChar]
  split
  · subst c
    rfl
  split
  · subst c
    rfl
  split
  · subst c
    rfl
  split
  · subst c
    rfl
  split
  · subst c
    rfl
  split
  · subst c
    rfl
  split
  · subst c
    rfl
  split
  · -- A control character is spelled by its number, which is no half of a pair.
    rename_i hcontrol
    have hlow : isLowHalf c.toNat = false := by
      simp only [isLowHalf, Bool.and_eq_false_iff, decide_eq_false_iff_not]
      omega
    have hhigh : isHighHalf c.toNat = false := by
      simp only [isHighHalf, Bool.and_eq_false_iff, decide_eq_false_iff_not]
      omega
    simp only [List.cons_append, List.nil_append, readChars, fourDigits?_control hcontrol, hlow,
      hhigh, Bool.false_eq_true, if_false, Char.ofNat_toNat]
  · rename_i hquote hbackslash _ _ _ _ _ hcontrol
    rw [List.singleton_append, readChars, if_neg hcontrol]
    all_goals simp_all

theorem readChars_flatMap (cs rest : List Char) :
    readChars (cs.flatMap writeChar ++ '"' :: rest) = .ok (cs, rest) := by
  induction cs with
  | nil => rfl
  | cons c cs ih =>
    rw [List.flatMap_cons, List.append_assoc, readChars_writeChar, ih]
    rfl

/-- A written string is read up to its closing quote. -/
theorem readString_writeString (text : String) (rest : List Char) :
    ∃ s, writeString text ++ rest = '"' :: s ∧ readString s = .ok (text, rest) := by
  refine ⟨text.toList.flatMap writeChar ++ '"' :: rest, ?_, ?_⟩
  · simp [writeString]
  · rw [readString, readChars_flatMap]
    show Except.ok (String.ofList text.toList, rest) = _
    rw [String.ofList_toList]

/-! ## Whole numbers -/

/-- The characters that a number goes on with. -/
def isNumberChar (c : Char) : Bool :=
  c.isDigit || c == '.' || c == 'e' || c == 'E'

theorem stops_isDigit {s : List Char} (h : Stops isNumberChar s) : Stops Char.isDigit s := by
  intro c hc
  have hstop := h c hc
  simp only [isNumberChar, Bool.or_eq_false_iff] at hstop
  exact hstop.1.1.1

theorem someDigits_digits (n : Nat) {rest : List Char} (h : Stops Char.isDigit rest) :
    someDigits (digits n ++ rest) = .ok (digits n, rest) := by
  have htake := Text.takeWhile_append_stops (Number.isDigit_of_mem_digits (n := n)) h
  have hdrop := Text.dropWhile_append_stops (Number.isDigit_of_mem_digits (n := n)) h
  obtain ⟨c, ds, hds, hc⟩ := Number.digits_eq_cons n
  rw [hds, List.cons_append] at htake hdrop ⊢
  rw [someDigits, if_pos hc, htake, hdrop]

/-- Zero is written as one digit and every other number does not start with a zero, so the reader
takes all digits. -/
theorem integerPart_digits (n : Nat) {rest : List Char} (h : Stops Char.isDigit rest) :
    integerPart (digits n ++ rest) = .ok (digits n, rest) := by
  by_cases hn : n = 0
  · subst hn
    rw [Number.digits_zero]
    cases rest with
    | nil => rfl
    | cons c rest =>
      have hc : c.isDigit = false := h c rfl
      simp [integerPart, hc]
  · have hhead := Number.head?_digits (Nat.pos_of_ne_zero hn)
    rw [integerPart]
    · exact someDigits_digits n h
    · intro c s hs
      obtain ⟨d, ds, hds, _⟩ := Number.digits_eq_cons n
      rw [hds, List.cons_append] at hs
      rw [hds, (List.cons.inj hs).1] at hhead
      exact hhead rfl

theorem fractionPart_stops {rest : List Char} (h : Stops isNumberChar rest) :
    fractionPart rest = .ok (none, rest) := by
  rw [fractionPart]
  rintro s rfl
  exact Bool.noConfusion (h '.' rfl)

theorem exponentPart_stops {rest : List Char} (h : Stops isNumberChar rest) :
    exponentPart rest = .ok (none, rest) := by
  rw [exponentPart]
  · rintro s rfl
    exact Bool.noConfusion (h 'e' rfl)
  · rintro s rfl
    exact Bool.noConfusion (h 'E' rfl)

/-- The whole numbers that documents keep: those of a signed or an unsigned 64-bit word. -/
def IsWord (n : Int) : Prop :=
  -(Number.twoPow 63 : Int) ≤ n ∧ n ≤ greatestWord

/-- The digits of a whole number are read as the number behind its sign. -/
theorem readNumber_digits {n : Int} (hn : IsWord n) {rest : List Char}
    (h : Stops isNumberChar rest) :
    readNumber (decide (n < 0)) (digits n.natAbs ++ rest) = .ok (.int n, rest) := by
  obtain ⟨hlow, hhigh⟩ := hn
  have hparts : ofParts (decide (n < 0)) (digits n.natAbs) none none = .ok (.int n) := by
    simp only [ofParts, Number.ofDigits_digits]
    by_cases hneg : n < 0
    · have hmagnitude : (0 < n.natAbs && n.natAbs ≤ Number.twoPow 63) = true := by
        simp only [Bool.and_eq_true, decide_eq_true_eq]
        omega
      simp only [hneg, decide_true, Bool.not_true, Bool.false_and, Bool.true_and,
        Bool.false_eq_true, if_false, hmagnitude, if_true]
      congr 2
      omega
    · have hmagnitude : n.natAbs ≤ greatestWord := by omega
      simp only [hneg, decide_false, Bool.not_false, Bool.true_and, hmagnitude, decide_true,
        if_true]
      congr 2
      omega
  simp only [readNumber, integerPart_digits _ (stops_isDigit h), fractionPart_stops h,
    exponentPart_stops h, hparts, bind, Except.bind, pure, Except.pure]

end Pushdown.Json
