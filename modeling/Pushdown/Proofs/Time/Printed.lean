import Mathlib
import Pushdown.Proofs.Time.Civil

/-!
# Civil times of all years

A database prints a year with at least four digits, and with more if it has more. The years before
the first one are counted backwards, with a mark behind the whole text. An offset that local time
had in the past may have seconds. `Printed` and `Offset` are such texts. Main statements: the readers
refuse a year of five digits (`fails_readDate_long`), and whatever stands behind the text of a
`Stamp` (`fails_readDay_behind`, `fails_readTimestamp_behind`, `fails_readZoned_behind`), which is
where the mark and the seconds stand.
-/

namespace Pushdown.Time

open Number
open Text (stops_append stops_cons stops_nil)

/-! ## Texts -/

/-- A date of the calendar and a time of day, with the digits of a fraction of a second, as a
database prints them. -/
structure Printed where
  /-- the year as it is printed, counted from the first year in both directions -/
  year : Nat
  month : Nat
  day : Nat
  /-- whether the date lies before the first year -/
  before : Bool
  clock : Clock
  fraction : List Char
  year_pos : 0 < year
  in_calendar : (Date.mk (if before then 1 - year else year) month day).exists = true
  hour_lt : clock.hour < 24
  minute_lt : clock.minute < 60
  second_lt : clock.second < 60
  digits : ∀ c ∈ fraction, c.isDigit = true
  length_le : fraction.length ≤ 6

/-- An offset from universal time, which has seconds only if it has minutes. -/
structure Offset where
  zone : Zone
  seconds : Option Nat
  seconds_lt : seconds.getD 0 < 60
  behind_minutes : zone.minutes = none → seconds = none

/-- The mark of the years before the first one. -/
def eraText (before : Bool) : List Char :=
  if before then [' ', 'B', 'C'] else []

namespace Printed

variable (p : Printed)

/-- The date, in the count of years in which the year 0 is the one before the first. -/
def date : Date :=
  ⟨if p.before then 1 - p.year else p.year, p.month, p.day⟩

theorem exists_date : p.date.exists = true :=
  p.in_calendar

/-- The date with dashes. -/
def dateText : List Char :=
  padded 4 p.year ++ '-' :: padded 2 p.month ++ '-' :: padded 2 p.day

/-- The time of day with colons. -/
def clockText : List Char :=
  padded 2 p.clock.hour ++ ':' :: padded 2 p.clock.minute ++ ':' :: padded 2 p.clock.second

/-- The date, a space, and the time of day with a fraction if there is one. -/
def text : List Char :=
  p.dateText ++ ' ' :: pointed p.clockText p.fraction

end Printed

/-- The offset with a colon in front of its minutes and of its seconds. -/
def Offset.text (o : Offset) : List Char :=
  o.zone.text ++ Zone.minutesText o.seconds

/-- A printed time whose year has four digits, as a stamp. Both have the same text. -/
def Printed.stamp (p : Printed) (h : p.year < 10 ^ 4) : Stamp where
  year := p.year
  month := p.month
  day := p.day
  clock := p.clock
  fraction := p.fraction
  year_lt := h
  month_lt := (Date.bounds p.exists_date).2.1.trans_lt (by decide)
  day_lt := (Date.bounds p.exists_date).2.2.2.trans_lt (by decide)
  hour_lt := p.hour_lt
  minute_lt := p.minute_lt
  second_lt := p.second_lt
  digits := p.digits
  length_le := p.length_le.trans (by decide)

theorem Printed.date_stamp (p : Printed) (hbefore : p.before = false) (h : p.year < 10 ^ 4) :
    (p.stamp h).date = p.date := by
  rw [Printed.date, hbefore]
  rfl

/-- The instant of a printed time at an offset. -/
def Printed.instant (p : Printed) (offset : Int) : Instant :=
  ⟨86400 * p.date.number + p.clock.seconds - offset, ofDigits (nine p.fraction)⟩

theorem Printed.instant_stamp (p : Printed) (hbefore : p.before = false) (h : p.year < 10 ^ 4)
    (offset : Int) : (p.stamp h).instant offset = p.instant offset := by
  have hnano : nanosecondsOf p.fraction = ofDigits (nine p.fraction) :=
    nanosecondsOf_eq (p.length_le.trans (by decide))
  rw [Stamp.instant, p.date_stamp hbefore h, Printed.instant, ← hnano]
  rfl

/-! ## Texts that start with no date -/

section NoDate

variable {s : List Char} (h : Fails (readDate s))

include h

theorem fails_readDay : Fails (readDay s) := by
  unfold readDay
  exact h.bind _

theorem fails_readDateTime : Fails (readDateTime s) := by
  unfold readDateTime
  exact h.bind _

theorem fails_readTimestamp : Fails (readTimestamp s) := by
  unfold readTimestamp
  exact (fails_readDateTime h).bind _

theorem fails_readZoned : Fails (readZoned s) := by
  unfold readZoned
  exact (fails_readDateTime h).bind _

end NoDate

/-- No date is read if its year is longer, because no dash stands behind four digits. -/
theorem fails_readDate_long {p : Printed} (h : 10 ^ 4 ≤ p.year) (rest : List Char) :
    Fails (readDate (p.dateText ++ rest)) := by
  obtain ⟨front, hfront, c, ds, hyear, hc⟩ := padded_long (by decide) h
  have hdash : c ≠ '-' := by
    intro heq
    rw [heq] at hc
    cases hc
  have hmark (s : List Char) : readMark '-' (c :: s) = .error .invalid := if_neg hdash
  rw [Printed.dateText, hyear]
  simp only [List.append_assoc, List.cons_append]
  unfold readDate
  rw [readYear_padded hfront]
  show Fails ((readMark '-' (c :: _)).bind _)
  rw [hmark]
  exact fails_error _

/-! ## Texts with something behind them -/

theorem fails_readEnd {s : List Char} (h : s ≠ []) : Fails (readEnd s) := by
  cases s with
  | nil => exact absurd rfl h
  | cons c s => exact fails_error _

section Behind

variable (s : Stamp) {rest : List Char}

/-- Nothing may stand behind a date. -/
theorem fails_readDay_behind (hrest : rest ≠ []) : Fails (readDay (s.dateText ++ rest)) := by
  unfold readDay
  rw [readDate_stamp]
  split
  · exact (fails_readEnd hrest).bind _
  · exact fails_error _

/-- Nothing may stand behind a date and a time of day. -/
theorem fails_readTimestamp_behind (hrest : rest ≠ []) (hends : EndsFraction rest) :
    Fails (readTimestamp (s.text ++ rest)) := by
  unfold readTimestamp
  rw [readDateTime_stamp s hends]
  split
  · exact (fails_readEnd hrest).bind _
  · exact fails_error _

/-- Nothing may stand behind an offset. -/
theorem fails_readZoned_behind (hends : EndsFraction rest)
    (hrest : ∀ read, readOffset rest = .ok read → read.2 ≠ []) :
    Fails (readZoned (s.text ++ rest)) := by
  unfold readZoned
  rw [readDateTime_stamp s hends]
  split
  · show Fails ((readOffset rest).bind _)
    apply fails_bind
    intro read hread
    exact (fails_readEnd (hrest read hread)).bind _
  · exact fails_error _

end Behind

/-! ## The texts of printed times -/

theorem endsFraction_eraText (before : Bool) : EndsFraction (eraText before) := by
  cases before with
  | true => exact stops_cons _ rfl
  | false => exact stops_nil _

/-- The mark of the era is no number of minutes. -/
theorem fails_readOffset_era {z : Zone} (h : z.minutes = none) :
    Fails (readOffset (z.text ++ eraText true)) := by
  have htext : z.text ++ eraText true =
      Zone.sign z.negative :: (padded 2 z.hours ++ eraText true) := by
    simp [Zone.text, h, Zone.minutesText]
  rw [htext, readOffset_hours z.negative z.hours_lt]
  exact fails_error _

/-- The seconds of an offset are left when it is read, and so is the mark of the era behind it. -/
theorem rest_of_readOffset (o : Offset) {before : Bool} (h : o.seconds ≠ none ∨ before = true) :
    ∀ read, readOffset (o.text ++ eraText before) = .ok read → read.2 ≠ [] := by
  intro read hread
  rw [Offset.text, List.append_assoc] at hread
  cases hminutes : o.zone.minutes with
  | none =>
    have hseconds : o.seconds = none := o.behind_minutes hminutes
    have hbefore : before = true := h.resolve_left (absurd hseconds)
    rw [hseconds, hbefore] at hread
    exact absurd hread (fails_readOffset_era hminutes read)
  | some minutes =>
    rw [readOffset_append hminutes] at hread
    rw [← Except.ok.inj hread]
    intro hempty
    obtain ⟨hseconds, hera⟩ := List.append_eq_nil_iff.mp hempty
    rcases h with hsome | hbefore
    · obtain ⟨seconds, hsome⟩ := Option.ne_none_iff_exists'.mp hsome
      rw [hsome] at hseconds
      cases hseconds
    · rw [hbefore] at hera
      cases hera

variable (p : Printed)

/-- A printed date is refused if it lies before the first year or its year has more than four
digits, and so is a printed time. -/
theorem fails_readDay_printed (h : ¬ (p.before = false ∧ p.year < 10 ^ 4)) :
    Fails (readDay (p.dateText ++ eraText p.before)) := by
  by_cases hyear : p.year < 10 ^ 4
  · have hbefore : p.before = true :=
      Bool.eq_true_of_not_eq_false fun hbefore => h ⟨hbefore, hyear⟩
    rw [hbefore]
    exact fails_readDay_behind (p.stamp hyear) (List.cons_ne_nil _ _)
  · exact fails_readDay (fails_readDate_long (Nat.le_of_not_lt hyear) _)

theorem fails_readTimestamp_printed (h : ¬ (p.before = false ∧ p.year < 10 ^ 4)) :
    Fails (readTimestamp (p.text ++ eraText p.before)) := by
  by_cases hyear : p.year < 10 ^ 4
  · have hbefore : p.before = true :=
      Bool.eq_true_of_not_eq_false fun hbefore => h ⟨hbefore, hyear⟩
    rw [hbefore]
    exact fails_readTimestamp_behind (p.stamp hyear) (List.cons_ne_nil _ _)
      (endsFraction_eraText true)
  · rw [Printed.text, List.append_assoc]
    exact fails_readTimestamp (fails_readDate_long (Nat.le_of_not_lt hyear) _)

theorem fails_readZoned_printed (o : Offset)
    (h : ¬ ((p.before = false ∧ p.year < 10 ^ 4) ∧ o.seconds = none)) :
    Fails (readZoned (p.text ++ (o.text ++ eraText p.before))) := by
  by_cases hyear : p.year < 10 ^ 4
  · -- The seconds or the mark are left behind the offset.
    have hrest : o.seconds ≠ none ∨ p.before = true := by
      by_cases hbefore : p.before = true
      · exact .inr hbefore
      · have hfalse : p.before = false := by simpa using hbefore
        exact .inl fun hseconds => h ⟨⟨hfalse, hyear⟩, hseconds⟩
    refine fails_readZoned_behind (p.stamp hyear) ?_ (rest_of_readOffset o hrest)
    rw [Offset.text, List.append_assoc]
    exact stops_append _ (List.cons_ne_nil _ _) (endsFraction_zone o.zone)
  · rw [Printed.text, List.append_assoc]
    exact fails_readZoned (fails_readDate_long (Nat.le_of_not_lt hyear) _)

end Pushdown.Time
