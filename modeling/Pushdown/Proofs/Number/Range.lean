import Mathlib
import Pushdown.Proofs.Number.Digits
import Pushdown.Proofs.Number.Rounding

/-!
# The range of doubles

A decimal is rounded to an infinity if it lies half a unit or more above the greatest double. At
exactly half a unit the tie goes to the even neighbour, which would be the next power of two. Main
statements: the double of a decimal is finite exactly if the decimal is below that limit
(`isFinite_ofDecimal_iff`), and otherwise it is the infinity of its sign (`ofDecimal_of_limit_le`).
-/

namespace Pushdown.Number

/-- The value of a decimal without its sign. -/
def Decimal.magnitude (d : Decimal) : ℚ :=
  d.coefficient * 10 ^ d.scale

/-- The least magnitude that is rounded to an infinity. -/
def Double.limit : ℚ :=
  2 ^ (1024 : ℤ) - 2 ^ (970 : ℤ)

/-! ## Rounding below an even number -/

/-- A quotient is rounded to at most an odd number just if it is below the half above it: the half
itself is rounded to the even number behind. -/
theorem roundHalfEven_le_iff {num den n : Nat} (hden : 0 < den) (hodd : n % 2 = 1) :
    roundHalfEven num den ≤ n ↔ 2 * num < (2 * n + 1) * den := by
  have hdiv := Nat.div_add_mod num den
  have hmod := Nat.mod_lt num hden
  have hn : (2 * n + 1) * den = 2 * (den * n) + den := by ring
  simp only [roundHalfEven]
  rcases Nat.lt_trichotomy (num / den) n with hq | hq | hq
  · have hmul : den * (num / den + 1) ≤ den * n := Nat.mul_le_mul_left den hq
    rw [Nat.mul_succ] at hmul
    split_ifs <;> omega
  · rw [hq] at hdiv ⊢
    split_ifs <;> omega
  · have hmul : den * (n + 1) ≤ den * (num / den) := Nat.mul_le_mul_left den hq
    rw [Nat.mul_succ] at hmul
    split_ifs <;> omega

namespace Double

/-! ## Binary numbers of the range -/

/-- A binary number is a finite double if its exponent is in the range, also with the carry of a
significand that was rounded up. -/
theorem isFinite_ofBinary_iff {negative : Bool} {b : Binary} :
    (ofBinary negative b).isFinite = true ↔
      b.significand < twoPow 52 ∨ b.exponent ≤ 970 ∨
        b.exponent = 971 ∧ b.significand ≠ twoPow 53 := by
  unfold ofBinary
  split
  · rename_i hsmall
    exact iff_of_true rfl (.inl hsmall)
  · rename_i hlarge
    by_cases hcarry : b.significand = twoPow 53
    · simp only [hcarry, if_true]
      split
      · exact iff_of_true rfl (by omega)
      · exact iff_of_false Bool.false_ne_true (by omega)
    · simp only [hcarry, if_false]
      split
      · exact iff_of_true rfl (by omega)
      · exact iff_of_false Bool.false_ne_true (by omega)

theorem limit_eq : limit = (2 ^ 54 - 1) * 2 ^ (970 : ℤ) := by
  have htop : (2 : ℚ) ^ (1024 : ℤ) = 2 ^ 54 * 2 ^ (970 : ℤ) := by
    rw [← zpow_natCast, ← zpow_add₀ (by norm_num)]
    norm_num
  rw [limit, htop]
  ring

theorem zpow_le_limit : (2 : ℚ) ^ (1023 : ℤ) ≤ limit := by
  have htop : (2 : ℚ) ^ (1023 : ℤ) = 2 ^ 53 * 2 ^ (970 : ℤ) := by
    rw [← zpow_natCast, ← zpow_add₀ (by norm_num)]
    norm_num
  rw [limit_eq, htop]
  gcongr
  norm_num

theorem one_lt_limit : 1 < limit :=
  lt_of_lt_of_le (one_lt_zpow₀ (by norm_num) (by norm_num)) zpow_le_limit

theorem limit_le_zpow : limit ≤ (2 : ℚ) ^ (1024 : ℤ) := by
  have hpos : (0 : ℚ) ≤ 2 ^ (970 : ℤ) := by positivity
  exact sub_le_self _ hpos

section Quotient

variable {negative : Bool} {num den : Nat}

/-- A quotient in the range of normal doubles is rounded to 53 bits, or to the power of two behind
them. -/
theorem ofQuotient_normal (hnum : 0 < num) (hden : 0 < den) (h : -1022 ≤ floorLog2 num den) :
    (Binary.ofQuotient 53 (-1074) num den).exponent = floorLog2 num den - 52 ∧
      twoPow 52 ≤ (Binary.ofQuotient 53 (-1074) num den).significand ∧
      (Binary.ofQuotient 53 (-1074) num den).significand ≤ twoPow 53 := by
  obtain ⟨hlow, hhigh⟩ := floorLog2_spec hnum hden
  set l := floorLog2 num den with hl
  have hexponent : (Binary.ofQuotient 53 (-1074) num den).exponent = l - 52 := by
    show max (-1074) (floorLog2 num den - ((53 : Nat) - 1)) = _
    omega
  -- Both bounds are powers of two, which are whole numbers of units.
  have hleast : (2 : ℚ) ^ l ≤ (Binary.ofQuotient 53 (-1074) num den).value :=
    le_value_ofQuotient (by omega) hden (by omega) hlow
  have hmost : (Binary.ofQuotient 53 (-1074) num den).value ≤ 2 ^ (l + 1) :=
    value_ofQuotient_le (by omega) hden (by omega) hhigh.le
  have hunit : (0 : ℚ) < 2 ^ (l - 52) := by positivity
  have hbottom : (l - (l - 52)).toNat = 52 := by omega
  have htop : (l + 1 - (l - 52)).toNat = 53 := by omega
  rw [Binary.value, hexponent, twoPow_units (show l - 52 ≤ l by omega), hbottom,
    mul_le_mul_iff_left₀ hunit, Nat.cast_le] at hleast
  rw [Binary.value, hexponent, twoPow_units (show l - 52 ≤ l + 1 by omega), htop,
    mul_le_mul_iff_left₀ hunit, Nat.cast_le] at hmost
  exact ⟨hexponent, hleast, hmost⟩

/-- In the last binade the significand has no carry just if the quotient is below the limit. -/
theorem significand_lt_iff (hden : 0 < den) (h : floorLog2 num den = 1023) :
    (Binary.ofQuotient 53 (-1074) num den).significand < twoPow 53 ↔
      (num : ℚ) < limit * den := by
  have hsignificand : (Binary.ofQuotient 53 (-1074) num den).significand =
      roundHalfEven (num * twoPow (-971 : ℤ).toNat) (den * twoPow (971 : ℤ).toNat) := by
    simp only [Binary.ofQuotient, h]
    rfl
  have hone : twoPow (-971 : ℤ).toNat = 1 := rfl
  have hodd : (twoPow 53 - 1) % 2 = 1 := by decide
  have hhalf : 2 * (twoPow 53 - 1) + 1 = 2 ^ 54 - 1 := by decide
  have htwo : (2 : ℚ) ^ (971 : ℤ) = 2 * 2 ^ (970 : ℤ) := by
    rw [← zpow_one_add₀ (by norm_num)]
    norm_num
  have hlimit : (((2 ^ 54 - 1) * (den * twoPow (971 : ℤ).toNat) : Nat) : ℚ) =
      2 * (limit * den) := by
    rw [limit_eq, Nat.cast_mul, Nat.cast_mul, cast_twoPow, ← zpow_natCast]
    show _ * (_ * (2 : ℚ) ^ (971 : ℤ)) = _
    rw [htwo, Nat.cast_sub (by decide)]
    generalize (2 : ℚ) ^ (970 : ℤ) = unit
    push_cast
    ring
  rw [hsignificand, Nat.lt_iff_le_pred (twoPow_pos 53),
    roundHalfEven_le_iff (Nat.mul_pos hden (twoPow_pos _)) hodd, hhalf, hone, Nat.mul_one,
    ← Nat.cast_lt (α := ℚ), hlimit, Nat.cast_mul, Nat.cast_ofNat]
  exact mul_lt_mul_iff_of_pos_left (by norm_num)

/-- The double of a quotient is finite exactly if the quotient is below the limit. -/
theorem isFinite_ofQuotient_iff (hden : 0 < den) :
    (ofQuotient negative num den).isFinite = true ↔ (num : ℚ) < limit * den := by
  have hpos : (0 : ℚ) < den := Nat.cast_pos.mpr hden
  show (ofBinary negative (Binary.ofQuotient 53 (-1074) num den)).isFinite = true ↔ _
  rcases Nat.eq_zero_or_pos num with rfl | hnum
  · rw [Nat.cast_zero]
    refine iff_of_true (isFinite_rounded hden ?_) (mul_pos (one_pos.trans one_lt_limit) hpos)
    rw [Nat.cast_zero]
    positivity
  · obtain ⟨hlow, hhigh⟩ := floorLog2_spec hnum hden
    rcases lt_trichotomy (floorLog2 num den) 1023 with hlog | hlog | hlog
    · -- the exponent leaves room for a carry
      refine iff_of_true (isFinite_ofBinary_iff.mpr (.inr (.inl ?_))) ?_
      · show max (-1074) (floorLog2 num den - ((53 : Nat) - 1)) ≤ 970
        omega
      · calc (num : ℚ) < 2 ^ (floorLog2 num den + 1) * den := hhigh
          _ ≤ 2 ^ (1023 : ℤ) * den := by
            gcongr
            · norm_num
            · omega
          _ ≤ limit * den := by
            gcongr
            exact zpow_le_limit
    · -- the last binade, where a carry leaves the range
      obtain ⟨hexponent, hleast, hmost⟩ := ofQuotient_normal hnum hden (by omega)
      rw [isFinite_ofBinary_iff, ← significand_lt_iff hden hlog, hexponent]
      omega
    · -- the exponent is above the range whatever the significand is
      obtain ⟨hexponent, hleast, -⟩ := ofQuotient_normal hnum hden (by omega)
      refine iff_of_false ?_ ?_
      · rw [isFinite_ofBinary_iff, hexponent]
        omega
      · rw [not_lt]
        calc limit * den ≤ 2 ^ (1024 : ℤ) * den := by
              gcongr
              exact limit_le_zpow
          _ ≤ 2 ^ floorLog2 num den * den := by
            gcongr
            · norm_num
            · omega
          _ ≤ num := hlow

end Quotient

/-! ## Decimals -/

/-- A positive number lies between the powers of ten that its number of digits says. -/
theorem digits_bounds {n : Nat} (h : 0 < n) :
    (10 : ℚ) ^ ((digits n).length - 1 : ℤ) ≤ n ∧ (n : ℚ) < 10 ^ ((digits n).length : ℤ) := by
  have hlength : 0 < (digits n).length := List.length_pos_iff.mpr (digits_ne_nil n)
  constructor
  · obtain ⟨rest, hrest⟩ := Nat.exists_eq_add_one.mpr hlength
    rw [hrest, Nat.cast_add_one, add_sub_cancel_right, zpow_natCast]
    -- One digit less would not do, unless there is only one.
    rcases Nat.eq_zero_or_pos rest with rfl | hrestPos
    · rw [pow_zero]
      exact_mod_cast h
    · have hmore : ¬ n < 10 ^ rest := by
        rw [← length_digits_le_iff hrestPos, hrest]
        omega
      exact_mod_cast not_lt.mp hmore
  · rw [zpow_natCast]
    exact_mod_cast (length_digits_le_iff hlength).mp le_rfl

theorem limit_le_tenPow : limit ≤ (10 : ℚ) ^ (310 : ℤ) := by
  have hstep : (2 : ℚ) ^ 205 ≤ 10 ^ 62 := by norm_num
  calc limit ≤ 2 ^ (1024 : ℤ) := limit_le_zpow
    _ ≤ 2 ^ ((205 : ℤ) * 5) := zpow_le_zpow_right₀ (by norm_num) (by norm_num)
    _ = ((2 : ℚ) ^ 205) ^ 5 := by rw [zpow_mul, zpow_ofNat, zpow_ofNat]
    _ ≤ ((10 : ℚ) ^ 62) ^ 5 := by gcongr
    _ = 10 ^ ((62 : ℤ) * 5) := by rw [zpow_mul, zpow_ofNat, zpow_ofNat]
    _ = 10 ^ (310 : ℤ) := by norm_num

/-- A decimal is the quotient of the two numbers that it is taken apart into. -/
theorem num_decimalQuotient (d : Decimal) :
    ((decimalQuotient d.coefficient d.scale).1 : ℚ) =
      d.magnitude * (decimalQuotient d.coefficient d.scale).2 := by
  have hten : ∀ n : Nat, ((tenPow n : Nat) : ℚ) = 10 ^ (n : ℤ) := by
    intro n
    rw [zpow_natCast]
    exact Nat.cast_pow 10 n
  have hscale : (10 : ℚ) ^ (d.scale.toNat : ℤ) = 10 ^ d.scale * 10 ^ ((-d.scale).toNat : ℤ) := by
    rw [← zpow_add₀ (by norm_num)]
    congr 1
    omega
  rw [decimalQuotient, Nat.cast_mul, hten, hten, hscale, Decimal.magnitude, mul_assoc]

/-- With so many digits before the point the limit is passed whatever the digits are. -/
theorem limit_le_magnitude {d : Decimal} (h : 0 < d.coefficient)
    (hdigits : 310 < ((digits d.coefficient).length : ℤ) + d.scale) : limit ≤ d.magnitude := by
  obtain ⟨hlow, -⟩ := digits_bounds h
  calc limit ≤ 10 ^ (310 : ℤ) := limit_le_tenPow
    _ ≤ 10 ^ (((digits d.coefficient).length - 1 : ℤ) + d.scale) := by
      gcongr
      · norm_num
      · omega
    _ = 10 ^ ((digits d.coefficient).length - 1 : ℤ) * 10 ^ d.scale := zpow_add₀ (by norm_num) _ _
    _ ≤ d.magnitude := by
      rw [Decimal.magnitude]
      gcongr

/-- Without a digit before the point a decimal is far below the limit. -/
theorem magnitude_lt_limit {d : Decimal} (h : 0 < d.coefficient)
    (hdigits : ((digits d.coefficient).length : ℤ) + d.scale ≤ 0) : d.magnitude < limit := by
  obtain ⟨-, hhigh⟩ := digits_bounds h
  calc d.magnitude ≤ 10 ^ ((digits d.coefficient).length : ℤ) * 10 ^ d.scale := by
        rw [Decimal.magnitude]
        gcongr
    _ = 10 ^ (((digits d.coefficient).length : ℤ) + d.scale) := (zpow_add₀ (by norm_num) _ _).symm
    _ ≤ 10 ^ (0 : ℤ) := by
      gcongr
      norm_num
    _ = 1 := zpow_zero _
    _ < limit := one_lt_limit

/-- The double of a decimal is finite exactly if the decimal is below the limit. -/
theorem isFinite_ofDecimal_iff (d : Decimal) :
    (ofDecimal d).isFinite = true ↔ d.magnitude < limit := by
  unfold ofDecimal ofDecimalBy
  split
  · rename_i hzero
    refine iff_of_true rfl ?_
    rw [Decimal.magnitude, hzero, Nat.cast_zero, zero_mul]
    exact one_pos.trans one_lt_limit
  · rename_i hcoefficient
    have hpos : 0 < d.coefficient := Nat.pos_of_ne_zero hcoefficient
    dsimp only
    -- A decimal of very many digits is decided without a look at its value.
    split
    · rename_i htop
      exact iff_of_false Bool.false_ne_true (not_lt.mpr (limit_le_magnitude hpos (by omega)))
    · split
      · rename_i hbottom
        exact iff_of_true rfl (magnitude_lt_limit hpos (by omega))
      · have hden : 0 < (decimalQuotient d.coefficient d.scale).2 := tenPow_pos _
        show (ofQuotient d.negative _ _).isFinite = true ↔ _
        rw [isFinite_ofQuotient_iff hden, num_decimalQuotient]
        exact mul_lt_mul_iff_left₀ (Nat.cast_pos.mpr hden)

/-! ## Signs -/

/-- Apart from its sign a double is the same on either side of zero. -/
theorem ofBinary_cases (b : Binary) :
    (∃ exponent fraction, ∀ negative, ofBinary negative b = .finite negative exponent fraction) ∨
      ∀ negative, ofBinary negative b = .infinite negative := by
  unfold ofBinary
  by_cases hsmall : b.significand < twoPow 52
  · left
    refine ⟨0, BitVec.ofNat 52 b.significand, fun negative => ?_⟩
    rw [if_pos hsmall]
  · by_cases hfits : (b.exponent + 1075).toNat +
        (if b.significand = twoPow 53 then 1 else 0) < 2047
    · left
      refine ⟨⟨_, hfits⟩, BitVec.ofNat 52
        (if b.significand = twoPow 53 then 0 else b.significand - twoPow 52), fun negative => ?_⟩
      rw [if_neg hsmall]
      exact dif_pos hfits
    · right
      intro negative
      rw [if_neg hsmall]
      exact dif_neg hfits

/-- The double of a decimal is a finite number or an infinity, with the sign of the decimal. -/
theorem ofDecimal_cases (coefficient : Nat) (scale : Int) :
    (∃ exponent fraction, ∀ negative,
      ofDecimal ⟨negative, coefficient, scale⟩ = .finite negative exponent fraction) ∨
      ∀ negative, ofDecimal ⟨negative, coefficient, scale⟩ = .infinite negative := by
  simp only [ofDecimal, ofDecimalBy]
  split_ifs
  · exact .inl ⟨_, _, fun _ => rfl⟩
  · exact .inr fun _ => rfl
  · exact .inl ⟨_, _, fun _ => rfl⟩
  · exact ofBinary_cases _

/-- A decimal from the limit on is rounded to the infinity of its sign. -/
theorem ofDecimal_of_limit_le {d : Decimal} (h : limit ≤ d.magnitude) :
    ofDecimal d = .infinite d.negative := by
  rcases ofDecimal_cases d.coefficient d.scale with ⟨exponent, fraction, hfinite⟩ | hinfinite
  · have hbelow := (isFinite_ofDecimal_iff d).mp (by rw [hfinite d.negative]; rfl)
    exact absurd hbelow (not_lt.mpr h)
  · exact hinfinite d.negative

/-- The double of a decimal behind a minus sign is the opposite one. -/
theorem negate_ofDecimal (coefficient : Nat) (scale : Int) :
    (ofDecimal ⟨false, coefficient, scale⟩).negate = ofDecimal ⟨true, coefficient, scale⟩ := by
  rcases ofDecimal_cases coefficient scale with ⟨exponent, fraction, hfinite⟩ | hinfinite
  · rw [hfinite, hfinite]
    rfl
  · rw [hinfinite, hinfinite]
    rfl

end Double

end Pushdown.Number
