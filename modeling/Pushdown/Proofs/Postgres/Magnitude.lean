import Mathlib
import Pushdown.Proofs.Postgres.Money
import Pushdown.Proofs.Postgres.Nulls

/-!
# Cells of finite numbers

The server sends a finite number as a numeral or as an amount of money, with as many digits as it
has. Every such text is made a double, also where the number lies above all of them: nothing is
kept as a text for its size. Main statement: the double is finite if the number is below the limit
of the range, and otherwise it is the infinity of its sign, which is printed as null
(`numberOrText_magnitude`).
-/

namespace Pushdown.Postgres

open Json (nullText write)
open Number (Decimal Double IsDigits pointed pointed_nil signed ofDigits ofDigits_cons
  ofDigits_zeros isDigit_of_mem_zeros)
open Text (spaced_self)

/-- The texts of finite numbers, with the sign and the digits on either side of the point. -/
inductive Printed : List Char → Bool → List Char → List Char → Prop
  | numeral {negative : Bool} {whole fraction : List Char} : IsDigits whole →
      (∀ c ∈ fraction, c.isDigit = true) →
      Printed (signed negative (pointed whole fraction)) negative whole fraction
  | money {text whole cents : List Char} {negative : Bool} : Money text negative whole cents →
      Printed text negative whole cents

/-- A cell of a finite number is the double that its digits are rounded to. -/
theorem numberOrText_of_printed {text : String} {negative : Bool} {whole fraction : List Char}
    (h : Printed text.toList negative whole fraction) :
    numberOrText text = .float (.ofDecimal (.spelled negative whole fraction)) := by
  generalize htext : text.toList = chars at h
  cases h with
  | numeral hwhole hfraction =>
    unfold numberOrText
    rw [htext, Double.ofText?_numeral hwhole.1 hwhole.2 hfraction]
  | money hmoney => exact numberOrText_of_money (htext ▸ hmoney)

/-- A double is printed as null exactly if it is not finite. -/
theorem write_float_iff (x : Double) :
    write (Value.float x).toJson = nullText ↔ x.isFinite = false := by
  simp [write_toJson_iff]

/-- A cell of a finite number is never kept as a text. It is a finite double just if the number is
below the limit of the range. From there on it is the infinity with the sign of the number, and is
printed as null. -/
theorem numberOrText_magnitude {text : String} {negative : Bool} {whole fraction : List Char}
    (h : Printed text.toList negative whole fraction) :
    ∃ x, numberOrText text = .float x ∧
      ((ofDigits (whole ++ fraction) : ℚ) / 10 ^ fraction.length < Double.limit →
        x.isFinite = true ∧ write (Value.float x).toJson ≠ nullText) ∧
      (Double.limit ≤ (ofDigits (whole ++ fraction) : ℚ) / 10 ^ fraction.length →
        x = .infinite negative ∧ write (Value.float x).toJson = nullText) := by
  refine ⟨_, numberOrText_of_printed h, ?_, ?_⟩
  · intro hbelow
    rw [← Decimal.magnitude_spelled negative] at hbelow
    have hfinite := (Double.isFinite_ofDecimal_iff _).mpr hbelow
    refine ⟨hfinite, ?_⟩
    rw [ne_eq, write_float_iff, hfinite]
    exact Bool.true_eq_false.mp
  · intro habove
    rw [← Decimal.magnitude_spelled negative] at habove
    have hinfinite := Double.ofDecimal_of_limit_le habove
    refine ⟨hinfinite, (write_float_iff _).mpr ?_⟩
    rw [hinfinite]
    rfl

/-! ## One and many zeros -/

theorem isDigits_one_zeros (count : Nat) : IsDigits ('1' :: List.replicate count '0') :=
  ⟨List.cons_ne_nil _ _, List.forall_mem_cons.mpr ⟨rfl, isDigit_of_mem_zeros⟩⟩

/-- One with 310 zeros or more is above the range. -/
theorem limit_le_one_zeros {count : Nat} (h : 310 ≤ count) :
    Double.limit ≤
      (ofDigits ('1' :: List.replicate count '0' ++ []) : ℚ) / 10 ^ ([] : List Char).length := by
  have hvalue : ofDigits ('1' :: List.replicate count '0') = 10 ^ count := by
    rw [ofDigits_cons, ofDigits_zeros, List.length_replicate]
    exact Nat.mul_one _
  rw [List.append_nil, hvalue, List.length_nil, pow_zero, div_one, Nat.cast_pow, Nat.cast_ofNat]
  calc Double.limit ≤ 10 ^ (310 : ℤ) := Double.limit_le_tenPow
    _ ≤ 10 ^ (count : ℤ) := zpow_le_zpow_right₀ (by norm_num) (by exact_mod_cast h)
    _ = 10 ^ count := zpow_natCast _ _

/-- An amount of money above the range is the negative infinity if it stands between
parentheses. -/
theorem numberOrText_magnitude_parentheses :
    let text := String.ofList ('(' :: (('$' :: '1' :: List.replicate 310 '0') ++ [')']))
    Printed text.toList true ('1' :: List.replicate 310 '0') [] ∧
      ∃ x, numberOrText text = .float x ∧ x = .infinite true ∧
        write (Value.float x).toJson = nullText := by
  intro text
  have hdollars : Dollars ('$' :: pointed ('1' :: List.replicate 310 '0') [])
      ('1' :: List.replicate 310 '0') [] :=
    .dollars (.plain (isDigits_one_zeros 310)) (List.forall_mem_nil _)
  have hprinted : Printed text.toList true ('1' :: List.replicate 310 '0') [] := by
    rw [String.toList_ofList]
    rw [pointed_nil] at hdollars
    exact .money (.spaced (spaced_self _) (.parentheses (spaced_self _) hdollars))
  obtain ⟨x, hx, -, habove⟩ := numberOrText_magnitude hprinted
  exact ⟨hprinted, x, hx, habove (limit_le_one_zeros le_rfl)⟩

/-- The numeral of one with 310 zeros, which the server prints for a finite number, is made an
infinity, and so is neither a finite double nor kept as a text. -/
theorem one_zeros_infinite :
    let text := String.ofList ('1' :: List.replicate 310 '0')
    Printed text.toList false ('1' :: List.replicate 310 '0') [] ∧
      numberOrText text = .float (.infinite false) ∧
      ¬ ((∃ x, numberOrText text = .float x ∧ x.isFinite = true) ∨
        numberOrText text = .string text) := by
  intro text
  have hprinted : Printed text.toList false ('1' :: List.replicate 310 '0') [] := by
    rw [String.toList_ofList]
    have hnumeral := @Printed.numeral false _ [] (isDigits_one_zeros 310) (List.forall_mem_nil _)
    rwa [pointed_nil] at hnumeral
  have habove : Double.limit ≤
      (Decimal.spelled false ('1' :: List.replicate 310 '0') []).magnitude := by
    rw [Decimal.magnitude_spelled]
    exact limit_le_one_zeros le_rfl
  have hvalue : numberOrText text = .float (.infinite false) := by
    rw [numberOrText_of_printed hprinted, Double.ofDecimal_of_limit_le habove]
    rfl
  refine ⟨hprinted, hvalue, ?_⟩
  rw [hvalue]
  rintro (⟨x, hx, hfinite⟩ | htext)
  · obtain rfl := Value.float.inj hx
    cases hfinite
  · cases htext

end Pushdown.Postgres
