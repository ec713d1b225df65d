import Mathlib
import Pushdown.Proofs.Number.Digits
import Pushdown.Proofs.Outcome

/-!
# Texts that are whole numbers

A whole number is written with digits and an optional sign (`Whole`). The digits are read from left
to right and refused as soon as they leave the range, which never refuses a number of the range,
since every number on the way is smaller. Main statement: a signed integer is read from exactly the
texts that are whole numbers of its range (`readSigned_eq_ok_iff`).
-/

namespace Pushdown.Number

/-- At least one digit and nothing else. -/
def IsDigits (ds : List Char) : Prop :=
  ds ≠ [] ∧ ∀ c ∈ ds, c.isDigit = true

/-- The whole number that a text is: digits, behind a sign or alone. -/
inductive Whole : List Char → Int → Prop
  | bare {ds : List Char} : IsDigits ds → Whole ds (ofDigits ds)
  | plus {ds : List Char} : IsDigits ds → Whole ('+' :: ds) (ofDigits ds)
  | minus {ds : List Char} : IsDigits ds → Whole ('-' :: ds) (-(ofDigits ds : Int))

/-- Digits are read exactly if their number is within the limit. -/
theorem readMagnitude_eq_ok_iff {limit : Nat} {overflow : IntegerError} {n m : Nat}
    {ds : List Char} (hn : n ≤ limit) :
    readMagnitude limit overflow n ds = .ok m ↔
      (∀ c ∈ ds, c.isDigit = true) ∧ Nat.ofDigitChars 10 ds n = m ∧ m ≤ limit := by
  constructor
  · intro h
    induction ds generalizing n with
    | nil =>
      rw [readMagnitude, Except.ok.injEq] at h
      rw [Nat.ofDigitChars_nil, ← h]
      exact ⟨by simp, rfl, hn⟩
    | cons c ds ih =>
      rw [readMagnitude] at h
      split at h
      · rename_i hc
        dsimp only at h
        split at h
        · rename_i hnext
          obtain ⟨hds, hvalue, hle⟩ := ih hnext h
          rw [Nat.ofDigitChars_cons]
          exact ⟨List.forall_mem_cons.mpr ⟨hc, hds⟩, hvalue, hle⟩
        · cases h
      · cases h
  · rintro ⟨hds, rfl, hle⟩
    exact readMagnitude_digits hds hle

/-- A number that is made of digits is read exactly if the digits are within the limit. -/
theorem map_readMagnitude_eq_ok_iff {limit : Nat} {overflow : IntegerError} {ds : List Char}
    (hne : ds ≠ []) {f : Nat → Int} {n : Int} :
    (readMagnitude limit overflow 0 ds).map f = .ok n ↔
      (IsDigits ds ∧ f (ofDigits ds) = n) ∧ ofDigits ds ≤ limit := by
  rw [map_eq_ok_iff]
  constructor
  · rintro ⟨m, hread, hf⟩
    obtain ⟨hds, rfl, hle⟩ := (readMagnitude_eq_ok_iff (Nat.zero_le limit)).mp hread
    exact ⟨⟨⟨hne, hds⟩, hf⟩, hle⟩
  · rintro ⟨⟨hds, hf⟩, hle⟩
    exact ⟨_, (readMagnitude_eq_ok_iff (Nat.zero_le limit)).mpr ⟨hds.2, rfl, hle⟩, hf⟩

/-- No digit is a sign. -/
theorem IsDigits.ne_sign {c : Char} {ds : List Char} (h : IsDigits (c :: ds)) :
    c ≠ '+' ∧ c ≠ '-' := by
  simpa using forall_isDigit (p := fun c => c != '+' && c != '-') (by decide) c
    (h.2 c List.mem_cons_self)

theorem whole_plus_iff {ds : List Char} {n : Int} :
    Whole ('+' :: ds) n ↔ IsDigits ds ∧ ofDigits ds = n := by
  constructor
  · intro h
    cases h with
    | bare hds => exact absurd rfl hds.ne_sign.1
    | plus hds => exact ⟨hds, rfl⟩
  · rintro ⟨hds, rfl⟩
    exact .plus hds

theorem whole_minus_iff {ds : List Char} {n : Int} :
    Whole ('-' :: ds) n ↔ IsDigits ds ∧ -(ofDigits ds : Int) = n := by
  constructor
  · intro h
    cases h with
    | bare hds => exact absurd rfl hds.ne_sign.2
    | minus hds => exact ⟨hds, rfl⟩
  · rintro ⟨hds, rfl⟩
    exact .minus hds

theorem whole_bare_iff {c : Char} {ds : List Char} {n : Int} (hplus : c ≠ '+') (hminus : c ≠ '-') :
    Whole (c :: ds) n ↔ IsDigits (c :: ds) ∧ ofDigits (c :: ds) = n := by
  constructor
  · intro h
    cases h with
    | bare hds => exact ⟨hds, rfl⟩
    | plus _ => exact absurd rfl hplus
    | minus _ => exact absurd rfl hminus
  · rintro ⟨hds, rfl⟩
    exact .bare hds

/-- An integer of a range with negative numbers is read from exactly the whole numbers of the
range. -/
theorem readInteger_eq_ok_iff {below above : Nat} (hbelow : 0 < below) {s : List Char} {n : Int} :
    readInteger below above s = .ok n ↔ Whole s n ∧ -(below : Int) ≤ n ∧ n ≤ above := by
  cases s with
  | nil =>
    refine iff_of_false (fun h => by cases h) ?_
    rintro ⟨⟨hnil, _⟩, _⟩
    exact hnil rfl
  | cons c rest =>
    by_cases hplus : c = '+'
    · subst hplus
      rw [whole_plus_iff]
      cases rest with
      | nil => exact iff_of_false (fun h => by cases h) (fun h => h.1.1.1 rfl)
      | cons d ds =>
        have hread : readInteger below above ('+' :: d :: ds) =
            (readMagnitude above .tooLarge 0 (d :: ds)).map Int.ofNat := rfl
        rw [hread, map_readMagnitude_eq_ok_iff (List.cons_ne_nil d ds), Int.ofNat_eq_natCast]
        refine and_congr_right ?_
        rintro ⟨_, rfl⟩
        omega
    · by_cases hminus : c = '-'
      · subst hminus
        rw [whole_minus_iff]
        cases rest with
        | nil => exact iff_of_false (fun h => by cases h) (fun h => h.1.1.1 rfl)
        | cons d ds =>
          have hread : readInteger below above ('-' :: d :: ds) =
              (readMagnitude below .tooSmall 0 (d :: ds)).map fun n : Nat => -(n : Int) := by
            simp only [readInteger, hbelow]
            cases readMagnitude below .tooSmall 0 (d :: ds) with
            | error e => rfl
            | ok m => rfl
          rw [hread, map_readMagnitude_eq_ok_iff (List.cons_ne_nil d ds)]
          refine and_congr_right ?_
          rintro ⟨_, rfl⟩
          omega
      · have hread : readInteger below above (c :: rest) =
            (readMagnitude above .tooLarge 0 (c :: rest)).map Int.ofNat := by
          simp [readInteger, hplus, hminus]
        rw [hread, whole_bare_iff hplus hminus,
          map_readMagnitude_eq_ok_iff (List.cons_ne_nil c rest), Int.ofNat_eq_natCast]
        refine and_congr_right ?_
        rintro ⟨_, rfl⟩
        omega

/-- A signed integer of so many bits is read from exactly the whole numbers of its range. -/
theorem readSigned_eq_ok_iff {bits : Nat} {s : List Char} {n : Int} :
    readSigned bits s = .ok n ↔
      Whole s n ∧ -(twoPow (bits - 1) : Int) ≤ n ∧ n < twoPow (bits - 1) := by
  have hpos := twoPow_pos (bits - 1)
  have habove : n ≤ (twoPow (bits - 1) - 1 : Nat) ↔ n < twoPow (bits - 1) := by omega
  rw [readSigned, readInteger_eq_ok_iff hpos, habove]

end Pushdown.Number
