import Mathlib
import Pushdown.Proofs.Postgres.Temporal
import Pushdown.Proofs.Time.Printed

/-!
# Dates and times that stay text

A database also prints dates that a cell is not read from. Main statement: a printed date or time is
read as its instant exactly if it does not lie before the first year, its year has four digits and
its offset no seconds, and stays text otherwise (`temporalOrText_printed`).
-/

namespace Pushdown.Postgres

open Number (ofDigits)
open Time (Counted Offset Printed counted_iff eraText nanosecondsOf_eq nine)

theorem instantOrText_of_fails {text : String} {x : Except Time.ReadError Time.Instant}
    (h : Fails x) : instantOrText text x = .string text := by
  cases x with
  | error e => rfl
  | ok i => exact absurd rfl (h i)

/-- What starts with no date stays text whatever the type of its column is. -/
theorem temporalOrText_of_fails {text : String} (h : Fails (Time.readDate text.toList))
    (type : CellType) : temporalOrText type text = .string text := by
  cases type with
  | date => exact instantOrText_of_fails (Time.fails_readDay h)
  | timestamp => exact instantOrText_of_fails (Time.fails_readTimestamp h)
  | zonedTimestamp => exact instantOrText_of_fails (Time.fails_readZoned h)
  | _ => rfl

/-! ## Printed cells -/

/-- The cell of a date. -/
def dayCell (p : Printed) : String :=
  String.ofList (p.dateText ++ eraText p.before)

/-- The cell of a time without an offset. -/
def timeCell (p : Printed) : String :=
  String.ofList (p.text ++ eraText p.before)

/-- The cell of a time with an offset. -/
def zonedCell (p : Printed) (o : Offset) : String :=
  String.ofList (p.text ++ (o.text ++ eraText p.before))

variable (p : Printed)

theorem temporalOrText_dayCell : temporalOrText (.ofOid 1082) (dayCell p) =
    if p.before = false ∧ p.year < 10 ^ 4 then .timestamp ⟨86400 * p.date.number, 0⟩
    else .string (dayCell p) := by
  split
  · rename_i h
    obtain ⟨hbefore, hyear⟩ := h
    have hcell : dayCell p = String.ofList (p.stamp hyear).dateText := by
      rw [dayCell, hbefore]
      exact congrArg String.ofList (List.append_nil _)
    rw [hcell, temporalOrText_date, p.date_stamp hbefore hyear, if_pos p.exists_date]
  · rename_i h
    have hfails : Fails (Time.readDay (dayCell p).toList) := by
      rw [dayCell, String.toList_ofList]
      exact Time.fails_readDay_printed p h
    rw [temporalOrText_oid_date]
    exact instantOrText_of_fails hfails

theorem temporalOrText_timeCell : temporalOrText (.ofOid 1114) (timeCell p) =
    if p.before = false ∧ p.year < 10 ^ 4 then .timestamp (p.instant 0)
    else .string (timeCell p) := by
  split
  · rename_i h
    obtain ⟨hbefore, hyear⟩ := h
    have hcell : timeCell p = String.ofList (p.stamp hyear).text := by
      rw [timeCell, hbefore]
      exact congrArg String.ofList (List.append_nil _)
    rw [hcell, temporalOrText_timestamp, p.date_stamp hbefore hyear, if_pos p.exists_date,
      p.instant_stamp hbefore hyear]
  · rename_i h
    have hfails : Fails (Time.readTimestamp (timeCell p).toList) := by
      rw [timeCell, String.toList_ofList]
      exact Time.fails_readTimestamp_printed p h
    rw [temporalOrText_oid_timestamp]
    exact instantOrText_of_fails hfails

theorem temporalOrText_zonedCell (o : Offset) : temporalOrText (.ofOid 1184) (zonedCell p o) =
    if (p.before = false ∧ p.year < 10 ^ 4) ∧ o.seconds = none then
      .timestamp (p.instant o.zone.seconds)
    else .string (zonedCell p o) := by
  split
  · rename_i h
    obtain ⟨⟨hbefore, hyear⟩, hseconds⟩ := h
    have hcell : zonedCell p o = String.ofList ((p.stamp hyear).text ++ o.zone.text) := by
      have hoffset : o.text ++ eraText false = o.zone.text := by
        rw [Offset.text, hseconds]
        simp [Time.Zone.minutesText, eraText]
      rw [zonedCell, hbefore, hoffset]
      rfl
    rw [hcell, temporalOrText_zoned, p.date_stamp hbefore hyear, if_pos p.exists_date,
      p.instant_stamp hbefore hyear]
  · rename_i h
    have hfails : Fails (Time.readZoned (zonedCell p o).toList) := by
      rw [zonedCell, String.toList_ofList]
      exact Time.fails_readZoned_printed p o h
    rw [temporalOrText_oid_zoned]
    exact instantOrText_of_fails hfails

/-- A printed date or time is read as its instant if it does not lie before the first year, its year
has four digits and its offset has no seconds, and stays text otherwise. An infinite one stays text
whatever the type of its column is. -/
theorem temporalOrText_printed (o : Offset) :
    (∃ n, Counted n p.date ∧
      temporalOrText (.ofOid 1082) (dayCell p) =
        (if p.before = false ∧ p.year < 10 ^ 4 then .timestamp ⟨86400 * n, 0⟩
        else .string (dayCell p)) ∧
      temporalOrText (.ofOid 1114) (timeCell p) =
        (if p.before = false ∧ p.year < 10 ^ 4 then
          .timestamp ⟨86400 * n + p.clock.seconds, ofDigits (nine p.fraction)⟩
        else .string (timeCell p)) ∧
      temporalOrText (.ofOid 1184) (zonedCell p o) =
        (if (p.before = false ∧ p.year < 10 ^ 4) ∧ o.seconds = none then
          .timestamp ⟨86400 * n + p.clock.seconds - o.zone.seconds, ofDigits (nine p.fraction)⟩
        else .string (zonedCell p o))) ∧
      ∀ type, temporalOrText type "infinity" = .string "infinity" ∧
        temporalOrText type "-infinity" = .string "-infinity" := by
  refine ⟨⟨p.date.number, counted_iff.mpr ⟨p.exists_date, rfl⟩, temporalOrText_dayCell p, ?_,
    temporalOrText_zonedCell p o⟩, ?_⟩
  · have htime := temporalOrText_timeCell p
    rwa [Printed.instant, Int.sub_zero] at htime
  · have hinfinity : Time.readDate "infinity".toList = .error .invalid := rfl
    have hnegative : Time.readDate "-infinity".toList = .error .invalid := rfl
    intro type
    constructor
    · apply temporalOrText_of_fails
      rw [hinfinity]
      exact fails_error _
    · apply temporalOrText_of_fails
      rw [hnegative]
      exact fails_error _

/-- The first day of the year 10000, and a midnight at the local mean time of New York: the calendar
has both, and both stay text. -/
theorem far_dates_kept :
    (∃ p : Printed, dayCell p = "10000-01-01" ∧ Counted 2932897 p.date ∧
      temporalOrText (.ofOid 1082) "10000-01-01" = .string "10000-01-01") ∧
      ∃ (p : Printed) (o : Offset), zonedCell p o = "1880-01-01 00:00:00-04:56:02" ∧
        Counted (-32872) p.date ∧ temporalOrText (.ofOid 1184) "1880-01-01 00:00:00-04:56:02" =
          .string "1880-01-01 00:00:00-04:56:02" := by
  let far : Printed := ⟨10000, 1, 1, false, Time.midnight, [], by decide, by decide, by decide,
    by decide, by decide, List.forall_mem_nil _, by decide⟩
  let past : Printed := ⟨1880, 1, 1, false, Time.midnight, [], by decide, by decide, by decide,
    by decide, by decide, List.forall_mem_nil _, by decide⟩
  let mean : Offset := ⟨⟨true, 4, some 56, by decide, by decide⟩, some 2, by decide, by decide⟩
  have hfar : Counted 2932897 ⟨10000, 1, 1⟩ := counted_iff.mpr ⟨by decide, by decide⟩
  have hpast : Counted (-32872) ⟨1880, 1, 1⟩ := counted_iff.mpr ⟨by decide, by decide⟩
  have hday : dayCell far = "10000-01-01" := by decide
  have hzoned : zonedCell past mean = "1880-01-01 00:00:00-04:56:02" := by decide
  exact ⟨⟨far, hday, hfar, by rfl⟩, past, mean, hzoned, hpast, by rfl⟩

end Pushdown.Postgres
