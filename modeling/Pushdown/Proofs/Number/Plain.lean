import Mathlib
import Pushdown.Number.Layout
import Pushdown.Proofs.Number.Digits

/-!
# The plain form is a decimal numeral

A finite double in its plain form is a decimal numeral: an optional minus sign, at least one digit
and, behind a point, at least one digit or nothing at all (`isNumeral_plain`). The one way in which
this could fail is an empty coefficient at scale 0, which would take a hit of zero on the grid of
tenths; no such hit exists, since the interval around a positive double does not reach down to zero
(`firstHit_ne`).
-/

namespace Pushdown.Number

/-! ## Numerals -/

/-- Digits, and more digits behind a point if there are any. -/
def pointed (whole fraction : List Char) : List Char :=
  whole ++ if fraction.isEmpty then [] else '.' :: fraction

theorem pointed_nil (whole : List Char) : pointed whole [] = whole :=
  List.append_nil whole

theorem pointed_of_ne_nil {fraction : List Char} (whole : List Char) (h : fraction ≠ []) :
    pointed whole fraction = whole ++ '.' :: fraction := by
  rw [pointed, if_neg (by simpa using h)]

/-- A decimal numeral with an optional minus sign. -/
def IsNumeral (s : List Char) : Prop :=
  ∃ negative whole fraction, s = signed negative (pointed whole fraction) ∧ whole ≠ [] ∧
    (∀ c ∈ whole, c.isDigit = true) ∧ ∀ c ∈ fraction, c.isDigit = true

/-- A written integer is a numeral without a point. -/
theorem isNumeral_ofInt (n : Int) : IsNumeral (ofInt n) := by
  refine ⟨decide (n < 0), digits n.natAbs, [], ?_, digits_ne_nil _, isDigit_of_mem_digits, by simp⟩
  rw [ofInt, pointed_nil]
  by_cases hn : n < 0 <;> simp [signed, hn]

/-! ## The search for the shortest decimal -/

theorem Neighbourhood.onGrid?_holds {tie : Tie} {i : Neighbourhood} {scale : Int} {n : Nat}
    (h : i.onGrid? tie scale = some n) : i.holds n scale = true := by
  unfold Neighbourhood.onGrid? at h
  simp only at h
  split at h
  · cases h
  · rename_i hbelow _
    cases h
    exact hbelow
  · rename_i _ habove
    cases h
    exact habove
  · rename_i hbelow habove
    -- both neighbours lie in the interval, so whichever is taken does
    repeat' split at h
    all_goals
      cases h
      assumption

/-- The interval around a positive magnitude starts above zero. -/
theorem Neighbourhood.low_pos {b : Binary} (h : 0 < b.significand) :
    0 < (Neighbourhood.ofBinary b).low := by
  have hunit := twoPow_pos (b.exponent - 2).toNat
  refine Nat.mul_pos ?_ hunit
  split <;> omega

theorem Neighbourhood.not_holds_zero {b : Binary} (h : 0 < b.significand) (scale : Int) :
    (Neighbourhood.ofBinary b).holds 0 scale = false := by
  have hlow : 0 < (ofBinary b).low * tenPow (-scale).toNat :=
    Nat.mul_pos (low_pos h) (tenPow_pos _)
  simp only [holds, Nat.zero_mul]
  split
  · rw [decide_eq_false (by omega), Bool.false_and]
  · rw [decide_eq_false (by omega), Bool.false_and]

/-- What a search gives lies in the interval, or it is the decimal cut off on the last grid. -/
theorem Neighbourhood.firstHit_cases (tie : Tie) (i : Neighbourhood) (start : Int) (fuel : Nat) :
    i.holds (i.firstHit tie start fuel).1 (i.firstHit tie start fuel).2 = true ∨
      i.firstHit tie start fuel =
        (i.value * tenPow (-(start - fuel)).toNat / (i.den * tenPow (start - fuel).toNat),
          start - fuel) := by
  induction fuel generalizing start with
  | zero =>
    right
    simp only [firstHit, Nat.cast_zero, sub_zero]
  | succ fuel ih =>
    rw [firstHit]
    split
    · rename_i n hn
      exact .inl (onGrid?_holds hn)
    · have hstart : start - 1 - (fuel : Int) = start - ((fuel + 1 : Nat) : Int) := by
        push_cast
        ring
      rw [← hstart]
      exact ih (start - 1)

/-- The search does not end with zero tenths. -/
theorem firstHit_ne (tie : Tie) {b : Binary} (h : 0 < b.significand) :
    (Neighbourhood.ofBinary b).firstHit tie
      (leadingExponent (Neighbourhood.ofBinary b).value (Neighbourhood.ofBinary b).den) 17 ≠
        (0, -1) := by
  intro heq
  set i := Neighbourhood.ofBinary b
  rcases Neighbourhood.firstHit_cases tie i (leadingExponent i.value i.den) 17 with hit | cut
  · rw [heq, Neighbourhood.not_holds_zero h] at hit
    cases hit
  · -- a search that was cut off at tenths started at 10 ^ 16, so the double is at least 1
    rw [heq] at cut
    obtain ⟨hn, hscale⟩ := Prod.mk.inj cut
    have hden : i.den ≤ i.value := by
      by_contra hlt
      rw [leadingExponent, if_neg hlt] at hscale
      omega
    have hpos : 0 < i.den := twoPow_pos _
    rw [← hscale] at hn
    have hzero : i.value * tenPow 1 / (i.den * tenPow 0) = 0 := hn.symm
    have hone : tenPow 0 = 1 := rfl
    have hten : tenPow 1 = 10 := rfl
    rw [hone, hten, Nat.mul_one, Nat.div_eq_zero_iff] at hzero
    omega

/-! ## The layout -/

/-- Only zero loses all of its digits, and only one of them. -/
theorem stripZeros_eq_nil {scale : Int} {n : Nat} (h : (stripZeros scale (digits n)).1 = []) :
    n = 0 ∧ (stripZeros scale (digits n)).2 = scale + 1 := by
  have hn : n = 0 := by
    by_contra hne
    have hlen : (digits n).length ≠ 0 := by simpa using digits_ne_nil n
    rw [stripZeros, List.take_eq_nil_iff] at h
    have hall : ((digits n).reverse.takeWhile (· == '0')).length = (digits n).reverse.length := by
      have hle := (List.takeWhile_prefix (l := (digits n).reverse) (· == '0')).length_le
      rw [List.length_reverse] at hle ⊢
      rcases h with h | h
      · omega
      · exact absurd h (digits_ne_nil n)
    have hzeros : ∀ c ∈ (digits n).reverse, (c == '0') = true :=
      List.takeWhile_eq_self_iff.mp
        ((List.takeWhile_prefix (· == '0')).eq_of_length hall)
    -- so the first digit is a zero as well
    obtain ⟨c, ds, hds, _⟩ := digits_eq_cons n
    have hc : (c == '0') = true := hzeros c (by rw [hds]; simp)
    apply head?_digits (Nat.pos_of_ne_zero hne)
    rw [hds, List.head?_cons, beq_iff_eq.mp hc]
  subst hn
  rw [digits_zero]
  exact ⟨rfl, rfl⟩

theorem isDigit_of_mem_stripZeros {scale : Int} {n : Nat} :
    ∀ c ∈ (stripZeros scale (digits n)).1, c.isDigit = true := by
  intro c hc
  exact isDigit_of_mem_digits c (List.mem_of_mem_take hc)

/-- Digits laid out plainly are digits with a point among them, unless there are none at scale 0. -/
theorem layPlain_pointed {ds : List Char} {scale : Int} (hds : ∀ c ∈ ds, c.isDigit = true)
    (hne : ds = [] → scale ≠ 0) :
    ∃ whole fraction, layPlain [] ds scale = pointed whole fraction ∧ whole ≠ [] ∧
      (∀ c ∈ whole, c.isDigit = true) ∧ ∀ c ∈ fraction, c.isDigit = true := by
  unfold layPlain
  simp only
  split
  · -- zeros behind the digits and no point
    rename_i hscale
    refine ⟨ds ++ List.replicate scale.toNat '0', [], by simp [pointed], ?_, ?_, by simp⟩
    · intro hnil
      obtain ⟨hnil, hzeros⟩ := List.append_eq_nil_iff.mp hnil
      have := hne hnil
      rw [List.replicate_eq_nil_iff] at hzeros
      omega
    · intro c hc
      rcases List.mem_append.mp hc with hc | hc
      · exact hds c hc
      · exact isDigit_of_mem_zeros c hc
  · rename_i hscale
    split
    · -- the point among the digits
      rename_i hpoint
      refine ⟨ds.take (ds.length + scale).toNat, ds.drop (ds.length + scale).toNat, ?_, ?_,
        fun c hc => hds c (List.mem_of_mem_take hc), fun c hc => hds c (List.mem_of_mem_drop hc)⟩
      · have hdrop : ds.drop (ds.length + scale).toNat ≠ [] := by
          rw [ne_eq, List.drop_eq_nil_iff]
          omega
        simp [pointed, hdrop]
      · rw [ne_eq, List.take_eq_nil_iff]
        rintro (hzero | hnil)
        · omega
        · rw [hnil, List.length_nil] at hpoint
          omega
    · -- a zero, the point, and zeros before the digits
      rename_i hpoint
      refine ⟨['0'], List.replicate (-(ds.length + scale)).toNat '0' ++ ds, ?_, by simp,
        by simp, ?_⟩
      · have hfraction : List.replicate (-(ds.length + scale)).toNat '0' ++ ds ≠ [] := by
          intro hnil
          obtain ⟨hzeros, hnil⟩ := List.append_eq_nil_iff.mp hnil
          rw [hnil, List.replicate_eq_nil_iff, List.length_nil] at hzeros
          omega
        rw [pointed_of_ne_nil _ hfraction]
        rfl
      · intro c hc
        rcases List.mem_append.mp hc with hc | hc
        · exact isDigit_of_mem_zeros c hc
        · exact hds c hc

/-- The plain form of a finite double is a decimal numeral. -/
theorem isNumeral_plain {x : Double} (h : x.isFinite = true) : IsNumeral x.plain := by
  cases x with
  | notANumber => cases h
  | infinite negative => cases h
  | finite negative exponent fraction =>
    rw [Double.plain]
    simp only
    split
    · exact ⟨negative, ['0'], [], rfl, by simp, by simp, by simp⟩
    · rename_i hzero
      have hpos : 0 < (Double.magnitude exponent fraction).significand := Nat.pos_of_ne_zero hzero
      have hsearch := firstHit_ne .up hpos
      simp only [shortest]
      generalize hfound : Neighbourhood.firstHit .up
        (Neighbourhood.ofBinary (Double.magnitude exponent fraction)) _ 17 = found at hsearch ⊢
      obtain ⟨n, scale⟩ := found
      have hne : (stripZeros scale (digits n)).1 = [] → (stripZeros scale (digits n)).2 ≠ 0 := by
        intro hnil hscale
        obtain ⟨rfl, hlast⟩ := stripZeros_eq_nil hnil
        rw [hlast] at hscale
        exact hsearch (by rw [show scale = -1 by omega])
      obtain ⟨whole, frac, heq, hwhole⟩ := layPlain_pointed isDigit_of_mem_stripZeros hne
      exact ⟨negative, whole, frac, congrArg (signed negative) heq, hwhole⟩

end Pushdown.Number
