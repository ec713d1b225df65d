import Mathlib
import Pushdown.Number.Double

/-!
# Rounding and powers of two

A power of two is a binary number of every width, so rounding never takes a quotient across one.
Main statements: a quotient up to a power of two is rounded to a number up to it
(`value_ofQuotient_le`) and likewise from below (`le_value_ofQuotient`), and one up to `2 ^ 1022` is
rounded to a finite double (`isFinite_ofBinary`).
-/

namespace Pushdown.Number

/-! ## Binary numbers as rational numbers -/

/-- The number that a significand and an exponent stand for. -/
def Binary.value (b : Binary) : ℚ :=
  b.significand * 2 ^ b.exponent

theorem cast_twoPow (n : Nat) : ((twoPow n : Nat) : ℚ) = 2 ^ n :=
  Nat.cast_pow 2 n

/-- An exponent is split into one of a numerator and one of a denominator. -/
theorem twoPow_split (e : ℤ) : (2 : ℚ) ^ e.toNat = 2 ^ e * 2 ^ (-e).toNat := by
  rw [← zpow_natCast, ← zpow_natCast, ← zpow_add₀ (by norm_num)]
  congr 1
  omega

theorem Binary.den_pos (b : Binary) : 0 < b.den :=
  twoPow_pos _

theorem Binary.num_eq (b : Binary) : (b.num : ℚ) = b.value * b.den := by
  rw [num, den, value, Nat.cast_mul, cast_twoPow, cast_twoPow, twoPow_split]
  ring

/-! ## The leading bit -/

/-- Whether a quotient reaches a power of two is a comparison of natural numbers. -/
theorem twoPow_le_iff (num den : Nat) (e : ℤ) :
    den * twoPow e.toNat ≤ num * twoPow (-e).toNat ↔ (2 : ℚ) ^ e * den ≤ num := by
  have hpos : (0 : ℚ) < 2 ^ (-e).toNat := by positivity
  rw [← Nat.cast_le (α := ℚ), Nat.cast_mul, Nat.cast_mul, cast_twoPow, cast_twoPow, twoPow_split,
    ← mul_assoc, mul_le_mul_iff_left₀ hpos, mul_comm]

theorem log2_bounds {n : Nat} (h : 0 < n) :
    (2 : ℚ) ^ (n.log2 : ℤ) ≤ n ∧ (n : ℚ) < 2 ^ ((n.log2 : ℤ) + 1) := by
  have hlow : 2 ^ n.log2 ≤ n := Nat.log2_self_le h.ne'
  have hhigh : n < 2 ^ (n.log2 + 1) := Nat.lt_log2_self
  constructor
  · exact_mod_cast hlow
  · exact_mod_cast hhigh

/-- The integer logarithm of a quotient is the greatest power of two that is at most as large. -/
theorem floorLog2_spec {num den : Nat} (hnum : 0 < num) (hden : 0 < den) :
    (2 : ℚ) ^ floorLog2 num den * den ≤ num ∧ (num : ℚ) < 2 ^ (floorLog2 num den + 1) * den := by
  obtain ⟨hnumLow, hnumHigh⟩ := log2_bounds hnum
  obtain ⟨hdenLow, hdenHigh⟩ := log2_bounds hden
  rw [floorLog2]
  simp only [twoPow_le_iff]
  set l : ℤ := (num.log2 : ℤ) - den.log2 with hl
  split
  · rename_i hreached
    refine ⟨hreached, ?_⟩
    calc (num : ℚ) < 2 ^ ((num.log2 : ℤ) + 1) := hnumHigh
      _ = 2 ^ (l + 1) * 2 ^ (den.log2 : ℤ) := by
        rw [← zpow_add₀ (by norm_num)]
        congr 1
        omega
      _ ≤ 2 ^ (l + 1) * den := by gcongr
  · rename_i hmissed
    refine ⟨?_, ?_⟩
    · calc (2 : ℚ) ^ (l - 1) * den ≤ 2 ^ (l - 1) * 2 ^ ((den.log2 : ℤ) + 1) := by gcongr
        _ = 2 ^ (num.log2 : ℤ) := by
          rw [← zpow_add₀ (by norm_num)]
          congr 1
          omega
        _ ≤ num := hnumLow
    · rw [sub_add_cancel]
      exact not_le.mp hmissed

/-! ## Rounding -/

/-- A quotient up to a whole number is rounded to a number up to it. -/
theorem roundHalfEven_le {num den n : Nat} (hden : 0 < den) (h : num ≤ n * den) :
    roundHalfEven num den ≤ n := by
  have hq : num / den ≤ n := Nat.div_le_of_le_mul (by rwa [Nat.mul_comm])
  have hdiv := Nat.div_add_mod num den
  rcases Nat.lt_or_eq_of_le hq with hlt | heq
  · simp only [roundHalfEven]
    split_ifs <;> omega
  · -- the quotient is the whole number itself, so there is nothing to round
    have hrest : num % den = 0 := by
      rw [heq, Nat.mul_comm] at hdiv
      omega
    simp only [roundHalfEven, hrest, Nat.mul_zero, if_pos hden]
    omega

/-- A quotient from a whole number on is rounded to a number from it on. -/
theorem le_roundHalfEven {num den n : Nat} (hden : 0 < den) (h : n * den ≤ num) :
    n ≤ roundHalfEven num den := by
  have hq : n ≤ num / den := (Nat.le_div_iff_mul_le hden).mpr h
  simp only [roundHalfEven]
  split_ifs <;> omega

section Quotient

variable {bits : Nat} {least : ℤ} {num den : Nat} {k : ℤ}

/-- The exponent of a rounded quotient leaves room for no more than so many bits. -/
theorem exponent_ofQuotient_le (hnum : 0 < num) (hden : 0 < den)
    (h : (num : ℚ) ≤ 2 ^ k * den) :
    (Binary.ofQuotient bits least num den).exponent ≤ max least (k - (bits - 1)) := by
  have hpos : (0 : ℚ) < den := Nat.cast_pos.mpr hden
  have hlog : floorLog2 num den ≤ k := by
    have hle : (2 : ℚ) ^ floorLog2 num den * den ≤ 2 ^ k * den :=
      (floorLog2_spec hnum hden).1.trans h
    exact (zpow_le_zpow_iff_right₀ (by norm_num)).mp (le_of_mul_le_mul_right hle hpos)
  show max least (floorLog2 num den - (bits - 1)) ≤ _
  omega

/-- A power of two at or above a unit is a whole number of units. -/
theorem twoPow_units {e : ℤ} (h : e ≤ k) :
    (2 : ℚ) ^ k = (twoPow (k - e).toNat : Nat) * 2 ^ e := by
  rw [cast_twoPow, ← zpow_natCast, ← zpow_add₀ (by norm_num)]
  congr 1
  omega

/-- The quotient that is rounded counts units, and so does the power of two it is compared with. -/
theorem units_eq {e : ℤ} (h : e ≤ k) (den : Nat) :
    ((twoPow (k - e).toNat * (den * twoPow e.toNat) : Nat) : ℚ) =
      2 ^ k * den * (twoPow (-e).toNat : Nat) := by
  rw [twoPow_units h, Nat.cast_mul, Nat.cast_mul, cast_twoPow e.toNat, cast_twoPow (-e).toNat,
    twoPow_split]
  ring

/-- A quotient up to a power of two is rounded to a number up to it. -/
theorem value_ofQuotient_le (hbits : 0 < bits) (hden : 0 < den) (hk : least ≤ k)
    (h : (num : ℚ) ≤ 2 ^ k * den) : (Binary.ofQuotient bits least num den).value ≤ 2 ^ k := by
  rcases Nat.eq_zero_or_pos num with rfl | hnum
  · have hzero : (Binary.ofQuotient bits least 0 den).significand = 0 := by
      simp only [Binary.ofQuotient, Nat.zero_mul]
      exact Nat.le_zero.mp (roundHalfEven_le (Nat.mul_pos hden (twoPow_pos _)) (Nat.zero_le _))
    rw [Binary.value, hzero, Nat.cast_zero, zero_mul]
    positivity
  · have hexponent : (Binary.ofQuotient bits least num den).exponent ≤ max least (k - (bits - 1)) :=
      exponent_ofQuotient_le hnum hden h
    set e := (Binary.ofQuotient bits least num den).exponent
    have hle : e ≤ k := by omega
    have hsignificand : (Binary.ofQuotient bits least num den).significand ≤
        twoPow (k - e).toNat := by
      show roundHalfEven (num * twoPow (-e).toNat) (den * twoPow e.toNat) ≤ _
      apply roundHalfEven_le (Nat.mul_pos hden (twoPow_pos _))
      rw [← Nat.cast_le (α := ℚ), units_eq hle, Nat.cast_mul]
      gcongr
    rw [Binary.value, twoPow_units hle]
    gcongr

/-- A quotient from a power of two on is rounded to a number from it on, unless the power lies below
the least unit. -/
theorem le_value_ofQuotient (hbits : 0 < bits) (hden : 0 < den) (hk : least ≤ k)
    (h : (2 : ℚ) ^ k * den ≤ num) : (2 : ℚ) ^ k ≤ (Binary.ofQuotient bits least num den).value := by
  have hpos : (0 : ℚ) < den := Nat.cast_pos.mpr hden
  have hnum : 0 < num := by
    rw [← Nat.cast_pos (α := ℚ)]
    exact lt_of_lt_of_le (by positivity) h
  obtain ⟨hlow, hhigh⟩ := floorLog2_spec hnum hden
  set l := floorLog2 num den
  have hlog : k ≤ l := by
    have hlt : (2 : ℚ) ^ k * den < 2 ^ (l + 1) * den := h.trans_lt hhigh
    have := (zpow_lt_zpow_iff_right₀ (by norm_num)).mp (lt_of_mul_lt_mul_right hlt hpos.le)
    omega
  set e := (Binary.ofQuotient bits least num den).exponent with he
  have hle : e ≤ l := by
    have : e = max least (l - (bits - 1)) := he
    omega
  have hsignificand : twoPow (l - e).toNat ≤
      (Binary.ofQuotient bits least num den).significand := by
    show _ ≤ roundHalfEven (num * twoPow (-e).toNat) (den * twoPow e.toNat)
    apply le_roundHalfEven (Nat.mul_pos hden (twoPow_pos _))
    rw [← Nat.cast_le (α := ℚ), units_eq hle, Nat.cast_mul]
    gcongr
  calc (2 : ℚ) ^ k ≤ 2 ^ l := zpow_le_zpow_right₀ (by norm_num) hlog
    _ = (twoPow (l - e).toNat : Nat) * 2 ^ e := twoPow_units hle
    _ ≤ (Binary.ofQuotient bits least num den).value := by
      rw [Binary.value]
      gcongr

end Quotient

/-! ## Finite doubles -/

/-- A binary number whose unit is small enough is a finite double. -/
theorem Double.isFinite_ofBinary {negative : Bool} {b : Binary} (h : b.exponent ≤ 970) :
    (ofBinary negative b).isFinite = true := by
  unfold ofBinary
  split
  · rfl
  · rw [dif_pos]
    · rfl
    · split <;> omega

/-- A quotient far below the greatest double is rounded to a finite one. -/
theorem Double.isFinite_rounded {negative : Bool} {num den : Nat} (hden : 0 < den)
    (h : (num : ℚ) ≤ 2 ^ (1022 : ℤ) * den) :
    (ofBinary negative (Binary.ofQuotient 53 (-1074) num den)).isFinite = true := by
  apply isFinite_ofBinary
  rcases Nat.eq_zero_or_pos num with rfl | hnum
  · have hlog : floorLog2 0 den ≤ 0 := by
      simp only [floorLog2, Nat.log2_zero]
      split <;> omega
    show max (-1074) (floorLog2 0 den - ((53 : Nat) - 1)) ≤ 970
    omega
  · have hexponent : (Binary.ofQuotient 53 (-1074) num den).exponent ≤
        max (-1074 : ℤ) (1022 - (((53 : Nat) : ℤ) - 1)) := exponent_ofQuotient_le hnum hden h
    exact hexponent

end Pushdown.Number
