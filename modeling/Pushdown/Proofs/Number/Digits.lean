import Mathlib
import Pushdown.Number.Numeral
import Pushdown.Proofs.Text.Span

/-!
# Written numbers and their readers

The digits of a number are digits, there is at least one and only zero starts with a zero. Main
statements: a padded number has its width and its value (`length_padded`, `ofDigits_padded`), and a
whole number reads back in every range that holds it (`readSigned_ofInt`).
-/

namespace Pushdown.Number

/-! ## Digits -/

/-- What holds of the ten digits holds of every digit. -/
theorem forall_isDigit {p : Char → Bool}
    (h : ['0', '1', '2', '3', '4', '5', '6', '7', '8', '9'].all p = true) :
    ∀ c, c.isDigit = true → p c = true := by
  intro c hc
  have hrange : 48 ≤ c.toNat ∧ c.toNat ≤ 57 := Char.isDigit_iff_toNat.mp hc
  have hmem : c ∈ ['0', '1', '2', '3', '4', '5', '6', '7', '8', '9'] := by
    rw [← Char.ofNat_toNat c]
    obtain ⟨hlow, hhigh⟩ := hrange
    generalize c.toNat = n at hlow hhigh ⊢
    interval_cases n <;> decide
  exact List.all_eq_true.mp h c hmem

/-- No digit is white space. -/
theorem isBlank_of_isDigit {c : Char} (h : c.isDigit = true) : Text.isBlank c = false := by
  simpa using forall_isDigit (p := fun c => !Text.isBlank c) (by decide) c h

theorem isDigit_of_mem_digits {n : Nat} : ∀ c ∈ digits n, c.isDigit = true := by
  intro c hc
  exact Nat.isDigit_of_mem_toDigits (by decide) (by decide) hc

theorem digits_ne_nil (n : Nat) : digits n ≠ [] :=
  Nat.toDigits_ne_nil

/-- A number starts with a digit. -/
theorem digits_eq_cons (n : Nat) : ∃ c ds, digits n = c :: ds ∧ c.isDigit = true := by
  cases hds : digits n with
  | nil => exact absurd hds (digits_ne_nil n)
  | cons c ds =>
    have hc : c ∈ digits n := by
      rw [hds]
      exact List.mem_cons_self
    exact ⟨c, ds, rfl, isDigit_of_mem_digits c hc⟩

theorem digits_zero : digits 0 = ['0'] :=
  Nat.toDigits_zero 10

theorem length_digits_le_iff {n width : Nat} (h : 0 < width) :
    (digits n).length ≤ width ↔ n < 10 ^ width :=
  Nat.length_toDigits_le_iff (by decide) h

/-- Only zero starts with a zero. -/
theorem head?_digits {n : Nat} (h : 0 < n) : (digits n).head? ≠ some '0' := by
  induction n using Nat.strong_induction_on with
  | _ n ih =>
    by_cases hn : n < 10
    · rw [digits, Nat.toDigits_of_lt_base hn]
      interval_cases n <;> decide
    · have hpos : 0 < n / 10 := by omega
      rw [digits, Nat.toDigits_of_base_le (by decide) (by omega),
        List.head?_append_of_ne_nil _ Nat.toDigits_ne_nil]
      exact ih (n / 10) (by omega) hpos

/-! ## Numbers of a width -/

theorem isDigit_of_mem_zeros {count : Nat} : ∀ c ∈ List.replicate count '0', c.isDigit = true := by
  intro c hc
  rw [List.eq_of_mem_replicate hc]
  decide

theorem isDigit_of_mem_padded {width n : Nat} : ∀ c ∈ padded width n, c.isDigit = true := by
  intro c hc
  rcases List.mem_append.mp hc with hc | hc
  · exact isDigit_of_mem_zeros c hc
  · exact isDigit_of_mem_digits c hc

/-- A padded number starts with a digit. -/
theorem padded_eq_cons (width n : Nat) : ∃ c ds, padded width n = c :: ds ∧ c.isDigit = true := by
  cases hpadded : padded width n with
  | nil =>
    rw [padded, List.append_eq_nil_iff] at hpadded
    exact absurd hpadded.2 (digits_ne_nil n)
  | cons c ds =>
    have hc : c ∈ padded width n := by
      rw [hpadded]
      exact List.mem_cons_self
    exact ⟨c, ds, rfl, isDigit_of_mem_padded c hc⟩

/-- A number that fits a width takes exactly the width. -/
theorem length_padded {width n : Nat} (hwidth : 0 < width) (h : n < 10 ^ width) :
    (padded width n).length = width := by
  have hle := (length_digits_le_iff hwidth).mpr h
  rw [padded, List.length_append, List.length_replicate]
  omega

@[simp] theorem ofDigits_padded (width n : Nat) : ofDigits (padded width n) = n := by
  rw [ofDigits, padded, Nat.ofDigitChars_append, Nat.ofDigitChars_replicate_zero, Nat.mul_zero]
  exact ofDigits_digits n

/-! ## Rows of digits -/

theorem ofDigits_cons (c : Char) (ds : List Char) :
    ofDigits (c :: ds) = 10 ^ ds.length * digitValue c + ofDigits ds := by
  rw [ofDigits, Nat.ofDigitChars_cons, Nat.mul_zero, Nat.zero_add,
    Nat.ofDigitChars_eq_ofDigitChars_zero]
  rfl

theorem ofDigits_append (a b : List Char) :
    ofDigits (a ++ b) = 10 ^ b.length * ofDigits a + ofDigits b := by
  rw [ofDigits, Nat.ofDigitChars_append, Nat.ofDigitChars_eq_ofDigitChars_zero]
  rfl

theorem ofDigits_zeros (count : Nat) : ofDigits (List.replicate count '0') = 0 := by
  rw [ofDigits, Nat.ofDigitChars_replicate_zero, Nat.mul_zero]

theorem digitValue_le {c : Char} (h : c.isDigit = true) : digitValue c ≤ 9 := by
  have hrange : 48 ≤ c.toNat ∧ c.toNat ≤ 57 := Char.isDigit_iff_toNat.mp h
  rw [digitValue]
  omega

/-- So many digits spell a number below that power of ten. -/
theorem ofDigits_lt {ds : List Char} (h : ∀ c ∈ ds, c.isDigit = true) :
    ofDigits ds < 10 ^ ds.length := by
  induction ds with
  | nil => decide
  | cons c ds ih =>
    have hrest := ih fun d hd => h d (List.mem_cons_of_mem c hd)
    have hc := digitValue_le (h c List.mem_cons_self)
    rw [ofDigits_cons, List.length_cons, Nat.pow_succ]
    calc 10 ^ ds.length * digitValue c + ofDigits ds
        < 10 ^ ds.length * digitValue c + 10 ^ ds.length := by omega
      _ = 10 ^ ds.length * (digitValue c + 1) := (Nat.mul_succ _ _).symm
      _ ≤ 10 ^ ds.length * 10 := Nat.mul_le_mul_left _ (by omega)

/-- Rows of digits of one length that spell the same number are the same. -/
theorem eq_of_ofDigits_eq {a b : List Char} (ha : ∀ c ∈ a, c.isDigit = true)
    (hb : ∀ c ∈ b, c.isDigit = true) (hlength : a.length = b.length)
    (h : ofDigits a = ofDigits b) : a = b := by
  induction a generalizing b with
  | nil => exact (List.length_eq_zero_iff.mp hlength.symm).symm
  | cons c a ih =>
    cases b with
    | nil => cases hlength
    | cons d b =>
      obtain ⟨hc, ha⟩ := List.forall_mem_cons.mp ha
      obtain ⟨hd, hb⟩ := List.forall_mem_cons.mp hb
      have hlength' : a.length = b.length := Nat.succ.inj hlength
      have hlt : ofDigits a < 10 ^ b.length := hlength' ▸ ofDigits_lt ha
      have hlt' := ofDigits_lt hb
      rw [ofDigits_cons, ofDigits_cons, hlength'] at h
      -- The first digits are the quotients by the power of ten, and the rest is what remains.
      have hfirst : digitValue c = digitValue d := by
        have hquotient := congrArg (· / 10 ^ b.length) h
        simpa [Nat.mul_add_div, Nat.div_eq_of_lt, hlt, hlt'] using hquotient
      have hchar : c = d := by
        have hrange : 48 ≤ c.toNat ∧ c.toNat ≤ 57 := Char.isDigit_iff_toNat.mp hc
        have hrange' : 48 ≤ d.toNat ∧ d.toNat ≤ 57 := Char.isDigit_iff_toNat.mp hd
        rw [digitValue, digitValue] at hfirst
        exact Char.toNat_inj.mp (by omega)
      rw [hfirst] at h
      rw [hchar, ih ha hb hlength' (Nat.add_left_cancel h)]

/-- A row of digits is the padded form of its number. -/
theorem padded_ofDigits {ds : List Char} (hne : ds ≠ []) (h : ∀ c ∈ ds, c.isDigit = true) :
    padded ds.length (ofDigits ds) = ds := by
  have hlength : (padded ds.length (ofDigits ds)).length = ds.length :=
    length_padded (List.length_pos_iff.mpr hne) (ofDigits_lt h)
  exact eq_of_ofDigits_eq isDigit_of_mem_padded h hlength (ofDigits_padded _ _)

/-- A number that is too long for its width starts with one that fits, and goes on with a digit. -/
theorem padded_long {width n : Nat} (hwidth : 0 < width) (h : 10 ^ width ≤ n) :
    ∃ front < 10 ^ width, ∃ c ds, padded width n = padded width front ++ c :: ds ∧
      c.isDigit = true := by
  have hdigits : ∀ c ∈ padded width n, c.isDigit = true := isDigit_of_mem_padded
  have hlength : width < (padded width n).length := by
    have hlt := ofDigits_lt hdigits
    rw [ofDigits_padded] at hlt
    exact (Nat.pow_lt_pow_iff_right (by decide)).mp (h.trans_lt hlt)
  have hcount : ((padded width n).take width).length = width := List.length_take_of_le hlength.le
  have hfront : ∀ c ∈ (padded width n).take width, c.isDigit = true :=
    fun c hc => hdigits c (List.mem_of_mem_take hc)
  have hfits := ofDigits_lt hfront
  have hpadded := padded_ofDigits (List.ne_nil_of_length_pos (by omega)) hfront
  rw [hcount] at hfits hpadded
  have hbehind : (padded width n).drop width ≠ [] := by
    apply List.ne_nil_of_length_pos
    rw [List.length_drop]
    omega
  obtain ⟨c, ds, hdrop⟩ := List.exists_cons_of_ne_nil hbehind
  have hc : c ∈ (padded width n).drop width := by
    rw [hdrop]
    exact List.mem_cons_self
  refine ⟨_, hfits, c, ds, ?_, hdigits c (List.mem_of_mem_drop hc)⟩
  rw [hpadded, ← hdrop, List.take_append_drop]

/-- Only zeros spell zero. -/
theorem eq_zeros_of_ofDigits {ds : List Char} (h : ∀ c ∈ ds, c.isDigit = true)
    (hzero : ofDigits ds = 0) : ds = List.replicate ds.length '0' := by
  refine eq_of_ofDigits_eq h isDigit_of_mem_zeros (List.length_replicate).symm ?_
  rw [hzero, ofDigits_zeros]

/-! ## Reading a whole number back -/

theorem le_ofDigitChars (n : Nat) (ds : List Char) : n ≤ Nat.ofDigitChars 10 ds n := by
  induction ds generalizing n with
  | nil => rw [Nat.ofDigitChars_nil]
  | cons c ds ih =>
    rw [Nat.ofDigitChars_cons]
    have := ih (10 * n + (c.toNat - '0'.toNat))
    omega

/-- Digits are read as their number, if the number is within the limit: every number on the way is
smaller. -/
theorem readMagnitude_digits {limit : Nat} {overflow : IntegerError} {n : Nat} {ds : List Char}
    (hds : ∀ c ∈ ds, c.isDigit = true) (hle : Nat.ofDigitChars 10 ds n ≤ limit) :
    readMagnitude limit overflow n ds = .ok (Nat.ofDigitChars 10 ds n) := by
  induction ds generalizing n with
  | nil => rfl
  | cons c ds ih =>
    rw [Nat.ofDigitChars_cons] at hle ⊢
    have hnext : 10 * n + digitValue c ≤ limit := by
      have := le_ofDigitChars (10 * n + (c.toNat - '0'.toNat)) ds
      exact le_trans this hle
    rw [readMagnitude, if_pos (hds c List.mem_cons_self), if_pos hnext]
    exact ih (fun d hd => hds d (List.mem_cons_of_mem c hd)) hle

theorem readMagnitude_written {limit : Nat} {overflow : IntegerError} {n : Nat} (h : n ≤ limit) :
    readMagnitude limit overflow 0 (digits n) = .ok n := by
  have hvalue : Nat.ofDigitChars 10 (digits n) 0 = n := ofDigits_digits n
  rw [readMagnitude_digits isDigit_of_mem_digits (by rw [hvalue]; exact h), hvalue]

/-- A written integer reads back in every range that holds it. -/
theorem readInteger_ofInt {below above : Nat} {n : Int} (hlow : -(below : Int) ≤ n)
    (hhigh : n ≤ above) : readInteger below above (ofInt n) = .ok n := by
  rw [ofInt]
  split
  · rename_i hneg
    have hbelow : 0 < below := by omega
    have hread : readMagnitude below .tooSmall 0 (digits n.natAbs) = .ok n.natAbs :=
      readMagnitude_written (by omega)
    have hne : (digits n.natAbs).isEmpty = false := by
      simpa using digits_ne_nil n.natAbs
    simp only [readInteger, hne, hread, hbelow]
    simp only [Bool.false_and, Bool.false_eq_true, if_false, Except.map, decide_true]
    rw [if_neg (by decide), if_pos (by decide)]
    show Except.ok (-(n.natAbs : Int)) = Except.ok n
    congr 1
    omega
  · rename_i hpos
    have hread : readMagnitude above .tooLarge 0 (digits n.natAbs) = .ok n.natAbs :=
      readMagnitude_written (by omega)
    obtain ⟨c, rest, hds, hc⟩ := digits_eq_cons n.natAbs
    have hsign : c ≠ '+' ∧ c ≠ '-' := by
      simpa using forall_isDigit (p := fun c => c != '+' && c != '-') (by decide) c hc
    obtain ⟨hplus, hminus⟩ := hsign
    rw [hds] at hread ⊢
    simp only [readInteger, hread, hplus, hminus, beq_eq_false_iff_ne.mpr hplus,
      beq_eq_false_iff_ne.mpr hminus]
    simp only [Bool.or_self, Bool.and_false, Bool.false_eq_true, if_false, decide_false,
      Bool.false_and, Except.map]
    congr 1
    show (n.natAbs : Int) = n
    omega

/-- A written integer of so many bits reads back. -/
theorem readSigned_ofInt {bits : Nat} {n : Int} (hlow : -(twoPow (bits - 1) : Int) ≤ n)
    (hhigh : n < twoPow (bits - 1)) : readSigned bits (ofInt n) = .ok n := by
  have hpos := twoPow_pos (bits - 1)
  exact readInteger_ofInt hlow (by omega)

end Pushdown.Number
