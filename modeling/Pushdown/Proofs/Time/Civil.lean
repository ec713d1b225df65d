import Mathlib
import Pushdown.Proofs.Outcome
import Pushdown.Proofs.Time.Fraction
import Pushdown.Proofs.Time.RoundTrip

/-!
# Civil times as a database writes them

A database writes a date with dashes, a time of day with colons and a fraction of a second, and for
some types an offset behind. `Stamp` and `Zone` are such texts, whether the calendar has the date or
not. Main statements: each of the three readers takes the text of a date that exists as the instant
of that civil time, and refuses every other (`readDay_stamp`, `readTimestamp_stamp`,
`readZoned_stamp`), and the instant shows the date and the time of day again (`write_instant`).
-/

namespace Pushdown.Time

open Number
open Text (stops_cons stops_nil)

/-! ## Texts -/

/-- A date and a time of day, with the digits of a fraction of a second. The fields have the widths
that they are written with, and the calendar may have the date or not. -/
structure Stamp where
  year : Nat
  month : Nat
  day : Nat
  clock : Clock
  fraction : List Char
  year_lt : year < 10 ^ 4
  month_lt : month < 10 ^ 2
  day_lt : day < 10 ^ 2
  hour_lt : clock.hour < 24
  minute_lt : clock.minute < 60
  second_lt : clock.second < 60
  digits : ∀ c ∈ fraction, c.isDigit = true
  length_le : fraction.length ≤ 9

/-- An offset from universal time in hours and maybe minutes. -/
structure Zone where
  negative : Bool
  hours : Nat
  minutes : Option Nat
  hours_lt : hours < 24
  minutes_lt : minutes.getD 0 < 60

namespace Stamp

/-- The date of a stamp. -/
def date (s : Stamp) : Date :=
  ⟨s.year, s.month, s.day⟩

/-- The date with dashes. -/
def dateText (s : Stamp) : List Char :=
  padded 4 s.year ++ '-' :: padded 2 s.month ++ '-' :: padded 2 s.day

/-- The time of day with colons. -/
def clockText (s : Stamp) : List Char :=
  padded 2 s.clock.hour ++ ':' :: padded 2 s.clock.minute ++ ':' :: padded 2 s.clock.second

/-- The date, a space, and the time of day with a fraction if there is one. -/
def text (s : Stamp) : List Char :=
  s.dateText ++ ' ' :: pointed s.clockText s.fraction

end Stamp

namespace Zone

/-- A hyphen or a plus. -/
def sign (negative : Bool) : Char :=
  if negative then '-' else '+'

/-- A colon and two digits of minutes, if there are minutes. -/
def minutesText : Option Nat → List Char
  | some minutes => ':' :: padded 2 minutes
  | none => []

/-- A sign, two digits of hours and maybe the minutes. -/
def text (z : Zone) : List Char :=
  sign z.negative :: padded 2 z.hours ++ minutesText z.minutes

/-- The offset in seconds. -/
def seconds (z : Zone) : Int :=
  (if z.negative then -1 else 1) * (3600 * z.hours + 60 * z.minutes.getD 0)

end Zone

/-! ## Fields -/

/-- There is no white space in front of a padded number. -/
theorem trimStart_padded (width n : Nat) (rest : List Char) :
    Text.trimStart (padded width n ++ rest) = padded width n ++ rest := by
  obtain ⟨c, ds, hpadded, hc⟩ := padded_eq_cons width n
  rw [hpadded]
  exact Text.trimStart_cons _ (isBlank_of_isDigit hc)

/-- A field of two digits is read if it lies in its range, and refused otherwise. -/
theorem readField_padded {low high n : Nat} (hfits : n < 10 ^ 2) (rest : List Char) :
    readField low high (padded 2 n ++ rest) =
      if low ≤ n ∧ n ≤ high then .ok (n, rest) else .error .outOfRange := by
  unfold readField
  rw [trimStart_padded, readDigits_padded (by decide) (by decide) hfits]
  simp [bind, Except.bind, pure, Except.pure]

theorem readField_blank (low high : Nat) (rest : List Char) :
    readField low high (' ' :: rest) = readField low high rest := rfl

/-- A year of four digits is read. -/
theorem readYear_padded {year : Nat} (hfits : year < 10 ^ 4) (rest : List Char) :
    readYear (padded 4 year ++ rest) = .ok ((year : Int), rest) := by
  have hread : readDigits 1 4 (padded 4 year ++ rest) = .ok (year, rest) :=
    readDigits_padded (by decide) (by decide) hfits rest
  have hchecked : checkedYear year = .ok (year : Int) := by
    have hlimit : 10 ^ 4 ≤ twoPow 31 := by decide +kernel
    unfold checkedYear
    rw [if_pos]
    simp only [Bool.and_eq_true, decide_eq_true_eq]
    omega
  obtain ⟨c, ds, hpadded, hc⟩ := padded_eq_cons 4 year
  have hsign : c ≠ '+' ∧ c ≠ '-' := by
    simpa using forall_isDigit (p := fun c => c != '+' && c != '-') (by decide) c hc
  unfold readYear
  rw [trimStart_padded]
  rw [hpadded, List.cons_append] at hread ⊢
  split
  · rename_i heq
    exact absurd (List.cons.inj heq).1 hsign.2
  · rename_i heq
    exact absurd (List.cons.inj heq).1 hsign.1
  · exact bind_eq_ok_iff.mpr ⟨_, hread, bind_eq_ok_iff.mpr ⟨_, hchecked, rfl⟩⟩

variable (s : Stamp)

/-- A date is read if its month and its day lie in their ranges, and refused otherwise. -/
theorem readDate_stamp (rest : List Char) :
    readDate (s.dateText ++ rest) =
      if (1 ≤ s.month ∧ s.month ≤ 12) ∧ 1 ≤ s.day ∧ s.day ≤ 31 then .ok (s.date, rest)
      else .error .outOfRange := by
  unfold readDate Stamp.dateText
  by_cases hmonth : 1 ≤ s.month ∧ s.month ≤ 12
  · by_cases hday : 1 ≤ s.day ∧ s.day ≤ 31
    · simp only [List.append_assoc, List.cons_append, readYear_padded s.year_lt, readMark_cons,
        readField_padded s.month_lt, readField_padded s.day_lt, if_pos hmonth, if_pos hday,
        if_pos (And.intro hmonth hday), bind, Except.bind, pure, Except.pure]
      rfl
    · simp only [List.append_assoc, List.cons_append, readYear_padded s.year_lt, readMark_cons,
        readField_padded s.month_lt, readField_padded s.day_lt, if_pos hmonth, if_neg hday,
        if_neg fun h : _ ∧ _ => hday h.2, bind, Except.bind]
  · simp only [List.append_assoc, List.cons_append, readYear_padded s.year_lt, readMark_cons,
      readField_padded s.month_lt, if_neg hmonth, if_neg fun h : _ ∧ _ => hmonth h.1, bind,
      Except.bind]

theorem readClock_stamp (rest : List Char) :
    readClock (' ' :: (s.clockText ++ rest)) = .ok (s.clock, rest) := by
  have hhour : s.clock.hour < 10 ^ 2 := lt_trans s.hour_lt (by decide)
  have hminute : s.clock.minute < 10 ^ 2 := lt_trans s.minute_lt (by decide)
  have hsecond : s.clock.second < 10 ^ 2 := lt_trans s.second_lt (by decide)
  have hhour' : 0 ≤ s.clock.hour ∧ s.clock.hour ≤ 23 := ⟨Nat.zero_le _, Nat.le_of_lt_succ s.hour_lt⟩
  have hminute' : 0 ≤ s.clock.minute ∧ s.clock.minute ≤ 59 :=
    ⟨Nat.zero_le _, Nat.le_of_lt_succ s.minute_lt⟩
  have hsecond' : 0 ≤ s.clock.second ∧ s.clock.second ≤ 60 := ⟨Nat.zero_le _, s.second_lt.le⟩
  unfold readClock Stamp.clockText
  simp only [List.append_assoc, List.cons_append, readField_blank, readField_padded hhour,
    readField_padded hminute, readField_padded hsecond, if_pos hhour', if_pos hminute',
    if_pos hsecond', readMark_cons, bind, Except.bind, pure, Except.pure]

/-- The date, the time of day and the fraction of a stamp are read, if the fields of the date lie in
their ranges. -/
theorem readDateTime_stamp {rest : List Char} (hrest : EndsFraction rest) :
    readDateTime (s.text ++ rest) =
      if (1 ≤ s.month ∧ s.month ≤ 12) ∧ 1 ≤ s.day ∧ s.day ≤ 31 then
        .ok ((s.date, s.clock, nanosecondsOf s.fraction), rest)
      else .error .outOfRange := by
  have htext : s.text ++ rest =
      s.dateText ++ ' ' :: (s.clockText ++ (pointed [] s.fraction ++ rest)) := by
    simp only [Stamp.text, pointed, List.append_assoc, List.cons_append, List.nil_append]
  rw [htext]
  unfold readDateTime
  rw [readDate_stamp]
  split
  · have hfraction := readFraction_pointed s.digits hrest
    simp only [readClock_stamp, hfraction, bind, Except.bind, pure, Except.pure]
  · rfl

theorem readMinutes_padded {n : Nat} (h : n < 60) (rest : List Char) :
    readMinutes (padded 2 n ++ rest) = .ok (n, rest) := by
  have hread := @readDigits_padded 2 2 n (by decide) (by decide) (by omega) rest
  unfold readMinutes
  simp [hread, h, bind, Except.bind, pure, Except.pure]

/-- The digits of a number are kept behind a colon, and what follows them. -/
theorem dropWhile_colon (n : Nat) (rest : List Char) :
    (':' :: (padded 2 n ++ rest)).dropWhile (fun c => c == ':' || Text.isBlank c) =
      padded 2 n ++ rest := by
  obtain ⟨c, ds, hpadded, hc⟩ := padded_eq_cons 2 n
  have hcolon : c ≠ ':' := by
    simpa using forall_isDigit (p := fun c => c != ':') (by decide) c hc
  rw [List.dropWhile_cons_of_pos rfl, hpadded, List.cons_append, List.dropWhile_cons_of_neg]
  simp [hcolon, isBlank_of_isDigit hc]

/-- A sign is no white space and no letter, and is read as what it is. -/
theorem sign_spec (negative : Bool) :
    Text.isBlank (Zone.sign negative) = false ∧ Zone.sign negative ≠ 'Z' ∧
      Zone.sign negative ≠ 'z' ∧
      ∀ rest, readSign (Zone.sign negative :: rest) = .ok (negative, rest) := by
  cases negative with
  | true => exact ⟨rfl, by decide, by decide, fun _ => rfl⟩
  | false => exact ⟨rfl, by decide, by decide, fun _ => rfl⟩

theorem Zone.seconds_eq (z : Zone) :
    z.seconds = offsetOf z.negative z.hours (z.minutes.getD 0) := by
  unfold Zone.seconds offsetOf
  cases z.negative with
  | true => simp
  | false => simp

/-- Behind the hours of an offset stand its minutes, unless the text ends there. -/
theorem readOffset_hours (negative : Bool) {hours : Nat} (hhours : hours < 24) (rest : List Char) :
    readOffset (Zone.sign negative :: (padded 2 hours ++ rest)) =
      let rest := rest.dropWhile fun c => c == ':' || Text.isBlank c
      if rest.isEmpty then .ok (offsetOf negative hours 0, rest)
      else (readMinutes rest).map fun read => (offsetOf negative hours read.1, read.2) := by
  have hread : readDigits 2 2 (padded 2 hours ++ rest) = .ok (hours, rest) :=
    readDigits_padded (by decide) (by decide) (by omega) _
  obtain ⟨hblank, hletter, hletter', hsigned⟩ := sign_spec negative
  unfold readOffset
  rw [Text.trimStart_cons _ hblank]
  split
  · rename_i heq
    exact absurd (List.cons.inj heq).1 hletter
  · rename_i heq
    exact absurd (List.cons.inj heq).1 hletter'
  · simp only [hsigned, hread, bind, Except.bind, pure, Except.pure]
    split
    · rfl
    · cases readMinutes _ <;> rfl

/-- An offset with minutes is read, whatever is behind it. -/
theorem readOffset_append {z : Zone} {minutes : Nat} (h : z.minutes = some minutes)
    (rest : List Char) : readOffset (z.text ++ rest) = .ok (z.seconds, rest) := by
  have hminutes : minutes < 60 := by
    have hlt := z.minutes_lt
    rwa [h] at hlt
  have htext : z.text ++ rest =
      Zone.sign z.negative :: (padded 2 z.hours ++ ':' :: (padded 2 minutes ++ rest)) := by
    simp [Zone.text, h, Zone.minutesText]
  obtain ⟨c, ds, hpadded, _⟩ := padded_eq_cons 2 minutes
  have hne : ¬ (padded 2 minutes ++ rest).isEmpty = true := by simp [hpadded]
  rw [htext, readOffset_hours z.negative z.hours_lt, Zone.seconds_eq, h]
  dsimp only
  rw [dropWhile_colon, if_neg hne, readMinutes_padded hminutes]
  rfl

/-- An offset is read to its end. -/
theorem readOffset_zone (z : Zone) : readOffset z.text = .ok (z.seconds, []) := by
  cases hminutes : z.minutes with
  | none =>
    have hread := readOffset_hours z.negative z.hours_lt []
    rw [Zone.seconds_eq, Zone.text, hminutes]
    exact hread
  | some minutes =>
    have hread := readOffset_append hminutes []
    rwa [List.append_nil] at hread

/-! ## Instants -/

/-- The seconds of a time of day. -/
def Clock.seconds (t : Clock) : Int :=
  3600 * t.hour + 60 * t.minute + t.second

/-- A second that is no leap second is counted as it is. -/
theorem ofCivil_eq {t : Clock} (ht : t.second < 60) (d : Date) (nanoseconds : Nat) (offset : Int) :
    Instant.ofCivil d t nanoseconds offset =
      ⟨86400 * d.number + t.seconds - offset, nanoseconds⟩ := by
  unfold Instant.ofCivil Clock.seconds daySeconds
  rw [if_neg (by omega), Nat.min_eq_left (by omega), Instant.mk.injEq]
  refine ⟨?_, rfl⟩
  push_cast
  ring

/-- An instant less than a day away from a date lies in its year or in one beside it. -/
theorem year_of_near {d : Date} (h : d.exists = true) {i : Instant}
    (hlow : 86400 * (d.number - 1) ≤ i.seconds) (hhigh : i.seconds < 86400 * (d.number + 2)) :
    d.year - 1 ≤ i.date.year ∧ i.date.year ≤ d.year + 1 := by
  have hyear : i.date.year = yearOfDay (i.seconds / 86400) := rfl
  obtain ⟨hfirst, hlast⟩ := yearOfDay_spec (i.seconds / 86400)
  obtain ⟨hstart, hend⟩ := Date.number_within h
  have hyear := mean_yearStart (yearOfDay (i.seconds / 86400))
  have hnext := mean_yearStart (yearOfDay (i.seconds / 86400) + 1)
  have hown := mean_yearStart d.year
  have hbehind := mean_yearStart (d.year + 1)
  omega

/-- A civil time of the years 0 to 9999, at an offset of less than a day, has an instant just if the
calendar has the date. -/
theorem instantAt_eq {d : Date} (hfirst : 0 ≤ d.year) (hlast : d.year ≤ 9999) {t : Clock}
    (hhour : t.hour < 24) (hminute : t.minute < 60) (hsecond : t.second < 60) (nanoseconds : Nat)
    {offset : Int} (hoffset : offset.natAbs < 86400) :
    instantAt d t nanoseconds offset =
      if d.exists then .ok ⟨86400 * d.number + t.seconds - offset, nanoseconds⟩
      else .error .outOfRange := by
  have hyears : firstYear = -262143 ∧ lastYear = 262142 := ⟨rfl, rfl⟩
  have hchecked : checkedDate d = if d.exists then .ok () else .error .outOfRange := by
    have hkept : decide (firstYear ≤ d.year) = true ∧ decide (d.year ≤ lastYear) = true := by
      simp only [decide_eq_true_eq]
      omega
    rw [checkedDate, hkept.1, hkept.2, Bool.and_true, Bool.and_true]
  unfold instantAt
  rw [hchecked, ofCivil_eq hsecond]
  split
  · rename_i hexists
    have hseconds : t.seconds = 3600 * t.hour + 60 * t.minute + t.second := rfl
    -- The offset moves the instant into a year beside that of the date at most.
    have hnear := @year_of_near d hexists
      ⟨86400 * d.number + t.seconds - offset, nanoseconds⟩ (by dsimp only; omega)
      (by dsimp only; omega)
    refine bind_eq_ok_iff.mpr ⟨(), rfl, if_pos ?_⟩
    simp only [Bool.and_eq_true, decide_eq_true_eq]
    omega
  · rfl

/-- The fields of a date that is in the calendar lie in their ranges. -/
theorem Stamp.ranges {s : Stamp} (h : s.date.exists = true) :
    (1 ≤ s.month ∧ s.month ≤ 12) ∧ 1 ≤ s.day ∧ s.day ≤ 31 := by
  obtain ⟨hmonth, hmonth', hday, hday'⟩ := Date.bounds h
  exact ⟨⟨hmonth, hmonth'⟩, hday, hday'⟩

/-- The instant of a stamp at an offset. -/
def Stamp.instant (s : Stamp) (offset : Int) : Instant :=
  ⟨86400 * s.date.number + s.clock.seconds - offset, nanosecondsOf s.fraction⟩

theorem instantAt_stamp {offset : Int} (hoffset : offset.natAbs < 86400) :
    instantAt s.date s.clock (nanosecondsOf s.fraction) offset =
      if s.date.exists then .ok (s.instant offset) else .error .outOfRange := by
  have hyear : s.date.year = s.year := rfl
  have hyear_lt := s.year_lt
  exact instantAt_eq (by omega) (by omega) s.hour_lt s.minute_lt s.second_lt _ hoffset

theorem Zone.natAbs_seconds_lt (z : Zone) : z.seconds.natAbs < 86400 := by
  have hhours := z.hours_lt
  have hminutes := z.minutes_lt
  unfold Zone.seconds
  split
  · omega
  · omega

theorem endsFraction_zone (z : Zone) : EndsFraction z.text := by
  unfold Zone.text
  apply stops_cons
  cases z.negative with
  | true => rfl
  | false => rfl

/-- The date of a stamp alone is read as its midnight in universal time. -/
theorem readDay_stamp : readDay s.dateText =
    if s.date.exists then .ok ⟨86400 * s.date.number, 0⟩ else .error .outOfRange := by
  have hdate := readDate_stamp s []
  rw [List.append_nil] at hdate
  have hyear : s.date.year = s.year := rfl
  have hyear_lt := s.year_lt
  have hinstant := @instantAt_eq s.date (by omega) (by omega) midnight (by decide) (by decide)
    (by decide) 0 0 (by decide)
  have hmidnight : 86400 * s.date.number + midnight.seconds - 0 = 86400 * s.date.number := by
    show 86400 * s.date.number + 0 - 0 = _
    omega
  rw [hmidnight] at hinstant
  unfold readDay
  rw [hdate, ← hinstant]
  split
  · rfl
  · rename_i hranges
    rw [hinstant, if_neg fun h => hranges (Stamp.ranges h)]
    rfl

/-- A stamp is read as its instant in universal time. -/
theorem readTimestamp_stamp : readTimestamp s.text =
    if s.date.exists then .ok (s.instant 0) else .error .outOfRange := by
  have htime := @readDateTime_stamp s [] (stops_nil _)
  rw [List.append_nil] at htime
  have hinstant := @instantAt_stamp s 0 (by decide)
  unfold readTimestamp
  rw [htime, ← hinstant]
  split
  · rfl
  · rename_i hranges
    rw [hinstant, if_neg fun h => hranges (Stamp.ranges h)]
    rfl

/-- A stamp with an offset behind it is read as its instant at that offset. -/
theorem readZoned_stamp (z : Zone) : readZoned (s.text ++ z.text) =
    if s.date.exists then .ok (s.instant z.seconds) else .error .outOfRange := by
  have htime := readDateTime_stamp s (endsFraction_zone z)
  have hinstant := instantAt_stamp s z.natAbs_seconds_lt
  unfold readZoned
  rw [htime, ← hinstant]
  split
  · show (readOffset z.text).bind _ = _
    rw [readOffset_zone]
    rfl
  · rename_i hranges
    rw [hinstant, if_neg fun h => hranges (Stamp.ranges h)]
    rfl

/-! ## Writing -/

/-- The instant of a date of the calendar and a time of day shows them again. -/
theorem date_clock_of_civil {d : Date} (h : d.exists = true) {t : Clock} (hhour : t.hour < 24)
    (hminute : t.minute < 60) (hsecond : t.second < 60) {n : Nat} (hn : n < secondNanoseconds) :
    Instant.date ⟨86400 * d.number + t.seconds, n⟩ = d ∧
      Instant.clock ⟨86400 * d.number + t.seconds, n⟩ = t := by
  have hseconds : t.seconds = 3600 * t.hour + 60 * t.minute + t.second := rfl
  constructor
  · have hday : (86400 * d.number + t.seconds) / daySeconds = d.number := by
      unfold daySeconds
      omega
    rw [Instant.date, hday, ofNumber_number h]
  · have hrest : ((86400 * d.number + t.seconds) % daySeconds).toNat =
        3600 * t.hour + 60 * t.minute + t.second := by
      unfold daySeconds
      omega
    obtain ⟨hour, minute, second⟩ := t
    unfold Instant.clock
    simp only [hrest, if_neg (Nat.not_le.mpr hn), Clock.mk.injEq]
    dsimp only at hhour hminute hsecond
    omega

/-- A year of four digits is written with them. -/
theorem writeYear_four {year : Nat} (h : year < 10 ^ 4) : Instant.writeYear year = padded 4 year := by
  unfold Instant.writeYear
  rw [if_pos, Int.toNat_natCast]
  simp only [Bool.and_eq_true, decide_eq_true_eq]
  omega

theorem writeDate_stamp : Instant.writeDate s.date = s.dateText := by
  unfold Instant.writeDate Stamp.dateText Stamp.date
  rw [writeYear_four s.year_lt]

/-- The instant of a stamp shows its date and its time of day. -/
theorem write_instant (h : s.date.exists = true) :
    (s.instant 0).write = s.dateText ++ 'T' :: s.clockText ++
      Instant.writeFraction (nanosecondsOf s.fraction) ++ ['Z'] := by
  have hnano := nanosecondsOf_lt s.digits s.length_le
  obtain ⟨hdate, hclock⟩ := date_clock_of_civil h s.hour_lt s.minute_lt s.second_lt hnano
  unfold Instant.write Instant.writeWith Stamp.instant
  rw [Int.sub_zero, hdate, hclock, writeDate_stamp]
  dsimp only
  rw [Nat.mod_eq_of_lt hnano]
  rfl

theorem date_clock_midnight {d : Date} (h : d.exists = true) :
    Instant.date ⟨86400 * d.number, 0⟩ = d ∧ Instant.clock ⟨86400 * d.number, 0⟩ = midnight := by
  have hcivil := date_clock_of_civil h (t := midnight) (by decide) (by decide) (by decide) (n := 0)
    (by decide)
  have hmidnight : 86400 * d.number + midnight.seconds = 86400 * d.number := Int.add_zero _
  rwa [hmidnight] at hcivil

/-- The midnight of a date of the calendar shows the date. -/
theorem write_midnight {d : Date} (h : d.exists = true) :
    Instant.write ⟨86400 * d.number, 0⟩ = Instant.writeDate d ++ "T00:00:00Z".toList := by
  obtain ⟨hdate, hclock⟩ := date_clock_midnight h
  have htail : 'T' :: Instant.writeClock midnight ++ (Instant.writeFraction 0 ++ ['Z']) =
      "T00:00:00Z".toList := by
    decide
  unfold Instant.write Instant.writeWith
  rw [hdate, hclock, List.append_assoc, List.append_assoc, ← htail]
  rfl

end Pushdown.Time
