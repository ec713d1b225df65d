import Mathlib
import Pushdown.Proofs.Number.Digits
import Pushdown.Proofs.Number.Plain
import Pushdown.Time.Reader

/-!
# Fractions of a second

A fraction is written with up to nine digits behind a point, and zeros at its end make no
difference: what counts are its nine digits (`nine`). Main statements: the digits that are written
are the shortest of their widths that lose nothing (`writeFraction_nanosecondsOf`), and they read
back (`readFraction_writeFraction`).
-/

namespace Pushdown.Time

open Number
open Text (Stops takeWhile_append_stops dropWhile_append_stops)

/-- The nine digits of a fraction. -/
def nine (ds : List Char) : List Char :=
  ds ++ List.replicate (9 - ds.length) '0'

/-- The shortest row of none, three, six or nine digits that is the same fraction. -/
structure Fitted (ds out : List Char) : Prop where
  width : out.length ∈ [0, 3, 6, 9]
  same : nine out = nine ds
  shortest : ∀ other : List Char, other.length ∈ [0, 3, 6, 9] → nine other = nine ds →
    out.length ≤ other.length

variable {ds : List Char}

theorem length_nine (h : ds.length ≤ 9) : (nine ds).length = 9 := by
  rw [nine, List.length_append, List.length_replicate]
  omega

theorem isDigit_of_mem_nine (h : ∀ c ∈ ds, c.isDigit = true) : ∀ c ∈ nine ds, c.isDigit = true := by
  intro c hc
  rcases List.mem_append.mp hc with hc | hc
  · exact h c hc
  · exact isDigit_of_mem_zeros c hc

theorem nanosecondsOf_eq (h : ds.length ≤ 9) : nanosecondsOf ds = ofDigits (nine ds) := by
  have htake : ds.take 9 = ds := List.take_of_length_le h
  unfold nanosecondsOf
  simp only [htake]
  rw [nine, ofDigits_append, ofDigits_zeros, List.length_replicate, Nat.mul_comm]
  rfl

theorem nanosecondsOf_lt (h : ∀ c ∈ ds, c.isDigit = true) (hlength : ds.length ≤ 9) :
    nanosecondsOf ds < secondNanoseconds := by
  have hlt := ofDigits_lt (isDigit_of_mem_nine h)
  rw [length_nine hlength] at hlt
  rw [nanosecondsOf_eq hlength]
  exact hlt

/-! ## Writing -/

/-- Digits are left out without loss just if the number is divided by the power of ten. -/
theorem drop_zeros_iff {full : List Char} (h : ∀ c ∈ full, c.isDigit = true) (width : Nat) :
    ofDigits full % 10 ^ (full.length - width) = 0 ↔
      full.drop width = List.replicate (full.length - width) '0' := by
  have hdigits : ∀ c ∈ full.drop width, c.isDigit = true := fun c hc => h c (List.mem_of_mem_drop hc)
  have hvalue : ofDigits full % 10 ^ (full.length - width) = ofDigits (full.drop width) := by
    have hlt := ofDigits_lt hdigits
    have hsplit := ofDigits_append (full.take width) (full.drop width)
    rw [List.take_append_drop, List.length_drop] at hsplit
    rw [List.length_drop] at hlt
    rw [hsplit, Nat.mul_add_mod, Nat.mod_eq_of_lt hlt]
  rw [hvalue]
  constructor
  · intro hzero
    have hzeros := eq_zeros_of_ofDigits hdigits hzero
    rwa [List.length_drop] at hzeros
  · intro hzeros
    rw [hzeros, ofDigits_zeros]

/-- The digits in front are the quotient by the power of ten. -/
theorem padded_div {full : List Char} (h : ∀ c ∈ full, c.isDigit = true) {width : Nat}
    (hpos : 0 < width) (hle : width ≤ full.length) :
    padded width (ofDigits full / 10 ^ (full.length - width)) = full.take width := by
  have hlt := ofDigits_lt fun c (hc : c ∈ full.drop width) => h c (List.mem_of_mem_drop hc)
  have hsplit := ofDigits_append (full.take width) (full.drop width)
  rw [List.take_append_drop, List.length_drop] at hsplit
  rw [List.length_drop] at hlt
  have hvalue : ofDigits full / 10 ^ (full.length - width) = ofDigits (full.take width) := by
    rw [hsplit, Nat.mul_add_div (Nat.pos_of_ne_zero (by positivity)), Nat.div_eq_of_lt hlt,
      Nat.add_zero]
  have hlength : (full.take width).length = width := List.length_take_of_le hle
  have hne : full.take width ≠ [] := List.ne_nil_of_length_pos (by omega)
  have hpadded := padded_ofDigits hne fun c hc => h c (List.mem_of_mem_take hc)
  rw [hlength] at hpadded
  rw [hvalue, hpadded]

/-- The zeros behind a row of digits are those that it has not among its nine digits. -/
theorem drop_of_nine {other : List Char} (h : nine other = nine ds) :
    (nine ds).drop other.length = List.replicate (9 - other.length) '0' := by
  rw [← h, nine, List.drop_left]

theorem le_nine {width : Nat} (h : width ∈ [0, 3, 6, 9]) : width ≤ 9 := by
  simp only [List.mem_cons, List.not_mem_nil, or_false] at h
  omega

/-- The digits up to a width are fitted if the number is divided by the power of ten that is left
out, and by no greater one of the widths. -/
theorem fitted_take (hdigits : ∀ c ∈ ds, c.isDigit = true) (hlength : ds.length ≤ 9) {width : Nat}
    (hwidth : width ∈ [0, 3, 6, 9]) (hzeros : nanosecondsOf ds % 10 ^ (9 - width) = 0)
    (hshortest : ∀ other ∈ [0, 3, 6, 9], other < width →
      nanosecondsOf ds % 10 ^ (9 - other) ≠ 0) :
    Fitted ds ((nine ds).take width) := by
  have hnine := length_nine hlength
  have hle := le_nine hwidth
  have hcount : ((nine ds).take width).length = width := List.length_take_of_le (by omega)
  have hiff := drop_zeros_iff (isDigit_of_mem_nine hdigits)
  rw [nanosecondsOf_eq hlength] at hzeros hshortest
  simp only [hnine] at hiff
  refine ⟨by rw [hcount]; exact hwidth, ?_, ?_⟩
  · rw [nine, hcount, ← (hiff width).mp hzeros, List.take_append_drop]
  · intro other hother hsame
    rw [hcount]
    by_contra hlt
    exact hshortest _ hother (by omega) ((hiff _).mpr (drop_of_nine hsame))

/-- The quotient that is written with a width of at least one digit is the fitted row. -/
theorem fitted_written (hdigits : ∀ c ∈ ds, c.isDigit = true) (hlength : ds.length ≤ 9) {width : Nat}
    (hpos : 0 < width) (hwidth : width ∈ [0, 3, 6, 9])
    (hzeros : nanosecondsOf ds % 10 ^ (9 - width) = 0)
    (hshortest : ∀ other ∈ [0, 3, 6, 9], other < width →
      nanosecondsOf ds % 10 ^ (9 - other) ≠ 0) :
    ∃ out, Fitted ds out ∧
      '.' :: padded width (nanosecondsOf ds / 10 ^ (9 - width)) = pointed [] out := by
  have hnine := length_nine hlength
  have hle := le_nine hwidth
  have hdiv := padded_div (isDigit_of_mem_nine hdigits) hpos (hnine.symm ▸ hle)
  rw [hnine, ← nanosecondsOf_eq hlength] at hdiv
  have hne : (nine ds).take width ≠ [] := by
    apply List.ne_nil_of_length_pos
    rw [List.length_take, hnine]
    omega
  refine ⟨_, fitted_take hdigits hlength hwidth hzeros hshortest, ?_⟩
  rw [hdiv, pointed, if_neg (by simpa using hne)]
  rfl

/-- The nanoseconds that digits spell are written with the shortest row that loses nothing. -/
theorem writeFraction_nanosecondsOf (hdigits : ∀ c ∈ ds, c.isDigit = true)
    (hlength : ds.length ≤ 9) :
    ∃ out, Fitted ds out ∧ Instant.writeFraction (nanosecondsOf ds) = pointed [] out := by
  have hwidths : ∀ other ∈ [0, 3, 6, 9], other = 0 ∨ other = 3 ∨ other = 6 ∨ other = 9 := by
    simp
  have hlt : nanosecondsOf ds < 1000000000 := nanosecondsOf_lt hdigits hlength
  unfold Instant.writeFraction
  split
  · rename_i hzero
    refine ⟨(nine ds).take 0, fitted_take hdigits hlength (by decide) ?_ ?_, rfl⟩
    · rw [hzero, Nat.zero_mod]
    · exact fun _ _ h => absurd h (Nat.not_lt_zero _)
  · rename_i hzero
    have hnano : nanosecondsOf ds % 10 ^ 9 ≠ 0 := by omega
    split
    · rename_i hmilli
      refine fitted_written hdigits hlength (by decide) (by decide) hmilli ?_
      intro other hother hless
      obtain rfl : other = 0 := by have := hwidths other hother; omega
      exact hnano
    · rename_i hmilli
      split
      · rename_i hmicro
        refine fitted_written hdigits hlength (by decide) (by decide) hmicro ?_
        intro other hother hless
        obtain rfl | rfl : other = 0 ∨ other = 3 := by have := hwidths other hother; omega
        · exact hnano
        · exact hmilli
      · rename_i hmicro
        have hall := @fitted_written ds hdigits hlength 9 (by decide) (by decide) (Nat.mod_one _)
        rw [Nat.sub_self, Nat.pow_zero, Nat.div_one] at hall
        apply hall
        intro other hother hless
        obtain rfl | rfl | rfl : other = 0 ∨ other = 3 ∨ other = 6 := by
          have := hwidths other hother
          omega
        · exact hnano
        · exact hmilli
        · exact hmicro

/-! ## Reading -/

/-- A text that does not go on with a digit or a point, so that a fraction ends there. -/
def EndsFraction (rest : List Char) : Prop :=
  Stops (fun c => c.isDigit || c == '.') rest

/-- A fraction is read up to where it ends. -/
theorem readFraction_pointed (hdigits : ∀ c ∈ ds, c.isDigit = true) {rest : List Char}
    (hrest : EndsFraction rest) :
    readFraction (pointed [] ds ++ rest) = .ok (nanosecondsOf ds, rest) := by
  have hstops : Stops Char.isDigit rest := fun c hc => (Bool.or_eq_false_iff.mp (hrest c hc)).1
  cases ds with
  | nil =>
    show readFraction rest = .ok (0, rest)
    cases rest with
    | nil => rfl
    | cons c rest =>
      have hpoint : c ≠ '.' := by
        simpa using (Bool.or_eq_false_iff.mp (hrest c rfl)).2
      simp [readFraction, hpoint]
  | cons c ds =>
    show readFraction ('.' :: (c :: ds ++ rest)) = .ok (nanosecondsOf (c :: ds), rest)
    simp only [readFraction, takeWhile_append_stops hdigits hstops,
      dropWhile_append_stops hdigits hstops]
    rfl

/-- The digits of a fraction are those of its nine digits. -/
theorem Fitted.isDigit {out : List Char} (h : Fitted ds out)
    (hdigits : ∀ c ∈ ds, c.isDigit = true) : ∀ c ∈ out, c.isDigit = true := by
  intro c hc
  apply isDigit_of_mem_nine hdigits
  rw [← h.same]
  exact List.mem_append_left _ hc

theorem Fitted.length_le {out : List Char} (h : Fitted ds out) : out.length ≤ 9 :=
  le_nine h.width

/-- Written nanoseconds read back. -/
theorem readFraction_writeFraction {n : Nat} (h : n < secondNanoseconds) {rest : List Char}
    (hrest : EndsFraction rest) :
    readFraction (Instant.writeFraction n ++ rest) = .ok (n, rest) := by
  have hlength : (padded 9 n).length ≤ 9 := (length_padded (by decide) h).le
  have hdigits : ∀ c ∈ padded 9 n, c.isDigit = true := isDigit_of_mem_padded
  obtain ⟨out, hfitted, hout⟩ := writeFraction_nanosecondsOf hdigits hlength
  have hn : nanosecondsOf (padded 9 n) = n := by
    have hfull : nine (padded 9 n) = padded 9 n := by
      rw [nine, length_padded (by decide) h]
      exact List.append_nil _
    rw [nanosecondsOf_eq hlength, hfull, ofDigits_padded]
  rw [hn] at hout
  rw [hout, readFraction_pointed (hfitted.isDigit hdigits) hrest,
    nanosecondsOf_eq hfitted.length_le, hfitted.same, ← nanosecondsOf_eq hlength, hn]

end Pushdown.Time
