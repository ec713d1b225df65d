import Mathlib
import Pushdown.Json.Reader
import Pushdown.Proofs.Number.Rounding

/-!
# Numbers of documents that are read

A number above the range of doubles is refused and every other one is within it, also where it is
divided by a power of ten in two steps. Main statement: a document that is read is no infinite
number (`isFinite_of_read`).
-/

namespace Pushdown.Json

open Number

/-! ## Digits that fit into a word -/

theorem wholeDigits_le (ds : List Char) : (wholeDigits ds).1 ≤ greatestWord := by
  unfold wholeDigits
  -- The fold keeps a word a word.
  refine List.foldlRecOn (motive := fun state : Nat × Nat => state.1 ≤ greatestWord) ds _
    (Nat.zero_le _) ?_
  rintro ⟨n, dropped⟩ h d _
  dsimp only
  split
  · rename_i hfits
    simpa using (Bool.and_eq_true_iff.mp hfits).2
  · exact h

theorem fractionDigits_le {n : Nat} (h : n ≤ greatestWord) (taken : Nat) (ds : List Char) :
    (fractionDigits n taken ds).1 ≤ greatestWord := by
  induction ds generalizing n taken with
  | nil => exact h
  | cons d ds ih =>
    rw [fractionDigits]
    split
    · rename_i hfits
      exact ih hfits (taken + 1)
    · exact h

/-! ## Quotients with a power of ten -/

/-- A power of ten is rounded to a number that is at least one. -/
theorem one_le_rounded_tenPow (power : Nat) : 1 ≤ (rounded (tenPow power) 1).value := by
  have hten : (1 : ℚ) ≤ (tenPow power : Nat) := by
    exact_mod_cast tenPow_pos power
  have hrounded : (2 : ℚ) ^ (0 : ℤ) ≤ (Binary.ofQuotient 53 (-1074) (tenPow power) 1).value :=
    le_value_ofQuotient (by omega) Nat.one_pos (by omega) (by simpa using hten)
  exact hrounded

/-- The numerator and the denominator of a number divided by a power of ten, before it is rounded:
they come to no more than the number. -/
theorem dividend_le {x : Binary} {bound : ℚ} (h : x.value ≤ bound) (power : Nat) :
    let p := rounded (tenPow power) 1
    0 < x.den * p.num ∧ ((x.num * p.den : Nat) : ℚ) ≤ bound * (x.den * p.num : Nat) := by
  intro p
  have hone : 1 ≤ p.value := one_le_rounded_tenPow power
  have hnum : (p.den : ℚ) ≤ p.num := by
    rw [p.num_eq]
    exact le_mul_of_one_le_left (Nat.cast_nonneg _) hone
  have hpos : 0 < p.num := p.den_pos.trans_le (by exact_mod_cast hnum)
  refine ⟨Nat.mul_pos x.den_pos hpos, ?_⟩
  rw [Nat.cast_mul, Nat.cast_mul, x.num_eq]
  have hvalue : 0 ≤ x.value := mul_nonneg (Nat.cast_nonneg _) (by positivity)
  have hbound : 0 ≤ bound := hvalue.trans h
  calc x.value * x.den * p.den ≤ bound * x.den * p.num := by gcongr
    _ = bound * (x.den * p.num) := by ring

theorem value_dividedByPower_le {x : Binary} (h : x.value ≤ 2 ^ (64 : ℤ)) (power : Nat) :
    (dividedByPower x power).value ≤ 2 ^ (64 : ℤ) := by
  obtain ⟨hden, hle⟩ := dividend_le h power
  exact value_ofQuotient_le (by omega) hden (by omega) hle

theorem isFinite_dividedByPower {x : Binary} (h : x.value ≤ 2 ^ (64 : ℤ)) (negative : Bool)
    (power : Nat) : (Double.ofBinary negative (dividedByPower x power)).isFinite = true := by
  have hbound : x.value ≤ 2 ^ (1022 : ℤ) :=
    h.trans (zpow_le_zpow_right₀ (by norm_num) (by norm_num))
  obtain ⟨hden, hle⟩ := dividend_le hbound power
  exact Double.isFinite_rounded hden hle

/-- A word times a power of ten is a finite double, if it is one at all. -/
theorem isFinite_scaled {negative : Bool} {word : Nat} {scale : Int} {x : Double}
    (hword : word ≤ greatestWord) (h : scaled negative word scale = .ok x) :
    x.isFinite = true := by
  have hvalue : (rounded word 1).value ≤ 2 ^ (64 : ℤ) := by
    have hlt : word ≤ 2 ^ 64 := hword.trans (by decide +kernel)
    apply value_ofQuotient_le (by omega) Nat.one_pos (by omega)
    rw [Nat.cast_one, mul_one]
    exact_mod_cast hlt
  unfold scaled at h
  split at h
  · rw [← Except.ok.inj h]
    rfl
  simp only at h
  split at h
  · cases h
  split at h
  · split at h
    · rename_i hfinite
      rw [← Except.ok.inj h]
      exact hfinite
    · cases h
  split at h
  · rw [← Except.ok.inj h]
    exact isFinite_dividedByPower hvalue negative _
  split at h
  · rw [← Except.ok.inj h]
    exact isFinite_dividedByPower (value_dividedByPower_le hvalue 308) negative _
  · rw [← Except.ok.inj h]
    rfl

/-! ## Documents that are read -/

theorem isFinite_ofParts {negative : Bool} {whole : List Char} {fraction : Option (List Char)}
    {exponent : Option Int} {x : Double}
    (h : ofParts negative whole fraction exponent = .ok (.double x)) : x.isFinite = true := by
  have hscaled : ∀ {word : Nat} {scale : Int}, word ≤ greatestWord →
      (scaled negative word scale).map Json.double = .ok (.double x) → x.isFinite = true := by
    intro word scale hword hmap
    cases hread : scaled negative word scale with
    | error e =>
      rw [hread] at hmap
      cases hmap
    | ok y =>
      rw [hread] at hmap
      cases hmap
      exact isFinite_scaled hword hread
  unfold ofParts at h
  dsimp only at h
  split at h
  · split at h
    · cases h
    split at h
    · cases h
    · exact hscaled (wholeDigits_le whole) h
  · exact hscaled (fractionDigits_le (wholeDigits_le whole) 0 _) h

theorem isFinite_readNumber {negative : Bool} {s rest : List Char} {x : Double}
    (h : readNumber negative s = .ok (.double x, rest)) : x.isFinite = true := by
  unfold readNumber at h
  simp only [bind, Except.bind, pure, Except.pure] at h
  split at h
  · cases h
  split at h
  · cases h
  split at h
  · cases h
  split at h
  · cases h
  · rename_i number hparts
    obtain rfl : number = .double x := congrArg Prod.fst (Except.ok.inj h)
    exact isFinite_ofParts hparts

theorem fst_readWord {document read : Json} {word s rest : List Char}
    (h : readWord document word s = .ok (read, rest)) : read = document := by
  induction word generalizing s with
  | nil => exact (congrArg Prod.fst (Except.ok.inj h)).symm
  | cons c word ih =>
    cases s with
    | nil => cases h
    | cons d s =>
      rw [readWord] at h
      split at h
      · exact ih h
      · cases h

theorem map_ne_double {α : Type} {read : Except ReadError (α × List Char)}
    {make : α × List Char → Json × List Char} {rest : List Char} {x : Double}
    (h : ∀ a, (make a).1 ≠ .double x) : read.map make ≠ .ok (.double x, rest) := by
  intro hread
  cases read with
  | error e => cases hread
  | ok a => exact h a (congrArg Prod.fst (Except.ok.inj hread))

/-- Only a number is read as a number. -/
theorem isFinite_readValue {fuel depth : Nat} {s rest : List Char} {x : Double}
    (h : readValue fuel depth s = .ok (.double x, rest)) : x.isFinite = true := by
  cases fuel with
  | zero => cases h
  | succ fuel =>
    rw [readValue] at h
    split at h
    · cases h
    · cases fst_readWord h
    · cases fst_readWord h
    · cases fst_readWord h
    · exact absurd h (map_ne_double fun _ => Json.noConfusion)
    · exact isFinite_readNumber h
    · -- an array
      split at h
      · cases h
      · split at h
        · cases h
        · cases h
        · exact absurd h (map_ne_double fun _ => Json.noConfusion)
    · -- an object
      split at h
      · cases h
      · split at h
        · cases h
        · cases h
        · exact absurd h (map_ne_double fun _ => Json.noConfusion)
    · split at h
      · exact isFinite_readNumber h
      · cases h

/-- A document that is read is no infinite number. -/
theorem isFinite_of_read {s : List Char} {x : Double} (h : read s = .ok (.double x)) :
    x.isFinite = true := by
  unfold read at h
  simp only [bind, Except.bind, pure, Except.pure] at h
  split at h
  · cases h
  · rename_i result hread
    obtain ⟨document, rest⟩ := result
    simp only at h
    split at h
    · obtain rfl : document = .double x := Except.ok.inj h
      exact isFinite_readValue hread
    · cases h

end Pushdown.Json
