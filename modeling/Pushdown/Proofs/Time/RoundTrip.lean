import Mathlib
import Pushdown.Proofs.Number.Digits
import Pushdown.Proofs.Time.Calendar
import Pushdown.Time.Reader

/-!
# Instants in RFC 3339

Reading undoes the written form of an instant of the years 0 to 9999. Each field is written with a
width that it fits and is read with exactly that width (`readExactly_padded`), so a date and a time
of day are read as they are (`readStrict_civil`), and putting them together again gives the instant
(`ofCivil_date_clock`). Main statement: `readStrict_writeWith`.
-/

namespace Pushdown.Time

open Number

/-! ## Fields -/

/-- A padded number is read with its width, whatever is behind it. -/
theorem readDigits_padded {least width n : Nat} (hwidth : 0 < width) (hleast : least ≤ width)
    (hfits : n < 10 ^ width) (rest : List Char) :
    readDigits least width (padded width n ++ rest) = .ok (n, rest) := by
  have hlength : (padded width n).length = width := length_padded hwidth hfits
  have htaken : ((padded width n ++ rest).take width).takeWhile Char.isDigit = padded width n := by
    rw [List.take_left' hlength, List.takeWhile_eq_self_iff]
    exact isDigit_of_mem_padded
  unfold readDigits
  simp only [htaken, hlength]
  rw [if_neg (Nat.not_lt.mpr hleast), List.drop_left' hlength, ofDigits_padded]

/-- A padded number of a range is read with its width. -/
theorem readExactly_padded {width low high n : Nat} (hwidth : 0 < width) (hfits : n < 10 ^ width)
    (hlow : low ≤ n) (hhigh : n ≤ high) (rest : List Char) :
    readExactly width low high (padded width n ++ rest) = .ok (n, rest) := by
  have hread := readDigits_padded hwidth (Nat.le_refl width) hfits rest
  unfold readExactly
  simp [hread, hlow, hhigh, bind, Except.bind, pure, Except.pure]

theorem readMark_cons (mark : Char) (rest : List Char) : readMark mark (mark :: rest) = .ok rest :=
  if_pos rfl

/-- The hours, minutes and seconds that a time of day may have. -/
structure Clock.Valid (t : Clock) : Prop where
  hour : t.hour ≤ 23
  minute : t.minute ≤ 59
  second : t.second ≤ 60

/-- A date of the calendar and a time of day are read as the instant of that civil time. -/
theorem readStrict_civil {d : Date} (hexists : d.exists = true) (hfirst : 0 ≤ d.year)
    (hlast : d.year ≤ 9999) {t : Clock} (ht : t.Valid) {fraction : List Char} {nanoseconds : Nat}
    (hfraction : readFraction (fraction ++ ['Z']) = .ok (nanoseconds, ['Z'])) :
    readStrict (Instant.writeDate d ++ 'T' :: Instant.writeClock t ++ fraction ++ ['Z']) =
      instantAt d t nanoseconds 0 := by
  obtain ⟨hmonth, hmonth', hday, hday'⟩ := Date.bounds hexists
  have hyear : Instant.writeYear d.year = padded 4 d.year.toNat := by
    unfold Instant.writeYear
    rw [if_pos (by simp [hfirst, hlast])]
  have hsign : (d.year.toNat : Int) = d.year := Int.toNat_of_nonneg hfirst
  have hyears (s : List Char) : readExactly 4 0 9999 (padded 4 d.year.toNat ++ s) =
      .ok (d.year.toNat, s) :=
    readExactly_padded (by decide) (by omega) (Nat.zero_le _) (by omega) s
  have hmonths (s : List Char) : readExactly 2 1 12 (padded 2 d.month ++ s) = .ok (d.month, s) :=
    readExactly_padded (by decide) (by omega) hmonth hmonth' s
  have hdays (s : List Char) : readExactly 2 1 31 (padded 2 d.day ++ s) = .ok (d.day, s) :=
    readExactly_padded (by decide) (by omega) hday hday' s
  have hhours (s : List Char) : readExactly 2 0 23 (padded 2 t.hour ++ s) = .ok (t.hour, s) :=
    readExactly_padded (by decide) (by have := ht.hour; omega) (Nat.zero_le _) ht.hour s
  have hminutes (s : List Char) :
      readExactly 2 0 59 (padded 2 t.minute ++ s) = .ok (t.minute, s) :=
    readExactly_padded (by decide) (by have := ht.minute; omega) (Nat.zero_le _) ht.minute s
  have hseconds (s : List Char) :
      readExactly 2 0 60 (padded 2 t.second ++ s) = .ok (t.second, s) :=
    readExactly_padded (by decide) (by have := ht.second; omega) (Nat.zero_le _) ht.second s
  have hseparator (s : List Char) : readSeparator ('T' :: s) = .ok s := rfl
  have hoffset : readStrictOffset ['Z'] = .ok (0, []) := rfl
  have hend : readEnd [] = .ok () := rfl
  unfold Instant.writeDate Instant.writeClock readStrict
  simp only [hyear, List.append_assoc, List.cons_append, hyears, hmonths, hdays, hhours, hminutes,
    hseconds, readMark_cons, hseparator, hfraction, hoffset, hend, hsign, bind, Except.bind]

/-! ## Instants -/

/-- Instants that a reading gives: the nanoseconds stay within their second, or within the second
behind the last second of a minute, which is a leap second. -/
def Instant.WellFormed (i : Instant) : Prop :=
  i.nanoseconds < secondNanoseconds ∨
    i.nanoseconds < 2 * secondNanoseconds ∧ i.seconds % 60 = 59

theorem clock_valid (i : Instant) : i.clock.Valid := by
  have hday : (i.seconds % daySeconds).toNat < 86400 := by
    unfold daySeconds
    omega
  refine ⟨?_, ?_, ?_⟩
  · show (i.seconds % daySeconds).toNat / 3600 ≤ 23
    omega
  · show (i.seconds % daySeconds).toNat / 60 % 60 ≤ 59
    omega
  · show (i.seconds % daySeconds).toNat % 60 +
      (if secondNanoseconds ≤ i.nanoseconds then 1 else 0) ≤ 60
    split <;> omega

/-- The date and the time of day of an instant make up the instant. -/
theorem ofCivil_date_clock {i : Instant} (h : i.WellFormed) :
    Instant.ofCivil i.date i.clock (i.nanoseconds % secondNanoseconds) 0 = i := by
  obtain ⟨seconds, nanoseconds⟩ := i
  have hdate : (Instant.date ⟨seconds, nanoseconds⟩).number = seconds / daySeconds :=
    number_ofNumber _
  unfold Instant.ofCivil Instant.clock
  simp only [hdate]
  unfold Instant.WellFormed secondNanoseconds at h
  unfold secondNanoseconds daySeconds
  simp only at h ⊢
  by_cases hleap : 1000000000 ≤ nanoseconds
  · -- A leap second shows as the second 60 and keeps the number of the second before it.
    have hlast : seconds % 60 = 59 := by omega
    have hsecond : (seconds % 86400).toNat % 60 + 1 = 60 := by omega
    rw [if_pos hleap, hsecond]
    simp only [if_true, Instant.mk.injEq]
    omega
  · have hsecond : (seconds % 86400).toNat % 60 + 0 ≠ 60 := by omega
    rw [if_neg hleap, if_neg hsecond, Instant.mk.injEq]
    omega

/-- An instant of the years 0 to 9999 reads back from its written form with a fraction that spells
its nanoseconds. -/
theorem readStrict_writeWith {i : Instant} (h : i.WellFormed) (hfirst : 0 ≤ i.date.year)
    (hlast : i.date.year ≤ 9999) {fraction : List Char}
    (hfraction : readFraction (fraction ++ ['Z']) =
      .ok (i.nanoseconds % secondNanoseconds, ['Z'])) :
    readStrict (i.writeWith fraction) = .ok i := by
  have hexists : i.date.exists = true := exists_ofNumber _
  have hcivil := ofCivil_date_clock h
  unfold Instant.writeWith
  rw [readStrict_civil hexists hfirst hlast (clock_valid i) hfraction]
  have hfirst' : firstYear ≤ i.date.year := le_trans (by decide) hfirst
  have hlast' : i.date.year ≤ lastYear := le_trans hlast (by decide)
  unfold instantAt checkedDate
  simp [hexists, hcivil, hfirst', hlast', bind, Except.bind, pure, Except.pure]

/-- A whole second, or the whole leap second behind the last second of a minute. -/
def Instant.IsWhole (i : Instant) : Prop :=
  i.nanoseconds = 0 ∨ i.nanoseconds = secondNanoseconds ∧ i.seconds % 60 = 59

/-- An instant of whole seconds reads back from its written form. -/
theorem readStrict_writeSeconds {i : Instant} (h : i.IsWhole) (hfirst : 0 ≤ i.date.year)
    (hlast : i.date.year ≤ 9999) : readStrict i.writeSeconds = .ok i := by
  have hpos : 0 < secondNanoseconds := by decide
  have hformed : i.WellFormed := by
    unfold Instant.IsWhole at h
    unfold Instant.WellFormed
    omega
  have hnone : i.nanoseconds % secondNanoseconds = 0 := by
    rcases h with h | ⟨h, _⟩
    · rw [h, Nat.zero_mod]
    · rw [h, Nat.mod_self]
  apply readStrict_writeWith hformed hfirst hlast
  rw [hnone]
  rfl

end Pushdown.Time
