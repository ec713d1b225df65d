import Mathlib
import Pushdown.Postgres.Cell
import Pushdown.Proofs.Time.Civil

/-!
# Cells of dates and times

A cell that holds a date or a time is read as an instant if the calendar has the date, and is kept
as it is otherwise. Main statement: the instant is that of the civil time, counted from day to day
and moved by the offset, and it shows the date and the time of day of the cell with a fraction of
the fitting width (`temporalOrText_stamp`).
-/

namespace Pushdown.Postgres

open Number (ofDigits pointed)
open Time (Counted Fitted Instant Stamp Zone nanosecondsOf nanosecondsOf_eq nine)

/-- A value is an instant, of which the document is a text. -/
structure Holds (value : Value) (i : Instant) (text : List Char) : Prop where
  instant : value = .timestamp i
  shown : value.toJson = .string (String.ofList text)

theorem holds_timestamp {i : Instant} {text : List Char} (h : i.write = text) :
    Holds (.timestamp i) i text := by
  subst h
  exact ⟨rfl, rfl⟩

theorem instantOrText_ite {c : Prop} [Decidable c] (text : String) (i : Instant)
    (e : Time.ReadError) :
    instantOrText text (if c then .ok i else .error e) =
      if c then .timestamp i else .string text := by
  split
  · rfl
  · rfl

/-! ## One cell of each type -/

theorem temporalOrText_oid_timestamp (text : String) : temporalOrText (.ofOid 1114) text =
    instantOrText text (Time.readTimestamp text.toList) := by
  have htype : CellType.ofOid 1114 = .timestamp := rfl
  rw [htype, temporalOrText]

theorem temporalOrText_oid_zoned (text : String) : temporalOrText (.ofOid 1184) text =
    instantOrText text (Time.readZoned text.toList) := by
  have htype : CellType.ofOid 1184 = .zonedTimestamp := rfl
  rw [htype, temporalOrText]

theorem temporalOrText_oid_date (text : String) : temporalOrText (.ofOid 1082) text =
    instantOrText text (Time.readDay text.toList) := by
  have htype : CellType.ofOid 1082 = .date := rfl
  rw [htype, temporalOrText]

variable (s : Stamp)

theorem temporalOrText_timestamp : temporalOrText (.ofOid 1114) (String.ofList s.text) =
    if s.date.exists then .timestamp (s.instant 0) else .string (String.ofList s.text) := by
  rw [temporalOrText_oid_timestamp, String.toList_ofList, Time.readTimestamp_stamp, instantOrText_ite]

theorem temporalOrText_zoned (z : Zone) :
    temporalOrText (.ofOid 1184) (String.ofList (s.text ++ z.text)) =
      if s.date.exists then .timestamp (s.instant z.seconds)
      else .string (String.ofList (s.text ++ z.text)) := by
  rw [temporalOrText_oid_zoned, String.toList_ofList, Time.readZoned_stamp, instantOrText_ite]

theorem temporalOrText_date : temporalOrText (.ofOid 1082) (String.ofList s.dateText) =
    if s.date.exists then .timestamp ⟨86400 * s.date.number, 0⟩
    else .string (String.ofList s.dateText) := by
  rw [temporalOrText_oid_date, String.toList_ofList, Time.readDay_stamp, instantOrText_ite]

/-! ## All three types -/

/-- A time without an offset shows its date and its time of day, with the shortest row of digits
that loses nothing of the fraction; a date shows itself at midnight; and a time with an offset is
the instant that is the offset before the time without it. A date that the calendar does not have
leaves all three as they are. -/
theorem temporalOrText_stamp (z : Zone) :
    if s.date.exists then
      ∃ (n : Int) (out : List Char), Counted n s.date ∧ Fitted s.fraction out ∧
        Holds (temporalOrText (.ofOid 1114) (String.ofList s.text))
          ⟨86400 * n + s.clock.seconds, ofDigits (nine s.fraction)⟩
          (s.dateText ++ 'T' :: pointed s.clockText out ++ ['Z']) ∧
        Holds (temporalOrText (.ofOid 1082) (String.ofList s.dateText)) ⟨86400 * n, 0⟩
          (s.dateText ++ "T00:00:00Z".toList) ∧
        temporalOrText (.ofOid 1184) (String.ofList (s.text ++ z.text)) =
          .timestamp ⟨86400 * n + s.clock.seconds - z.seconds, ofDigits (nine s.fraction)⟩
    else
      temporalOrText (.ofOid 1114) (String.ofList s.text) = .string (String.ofList s.text) ∧
        temporalOrText (.ofOid 1082) (String.ofList s.dateText) =
          .string (String.ofList s.dateText) ∧
        temporalOrText (.ofOid 1184) (String.ofList (s.text ++ z.text)) =
          .string (String.ofList (s.text ++ z.text)) := by
  rw [temporalOrText_timestamp, temporalOrText_date, temporalOrText_zoned]
  split
  · rename_i hexists
    obtain ⟨out, hfitted, hout⟩ := Time.writeFraction_nanosecondsOf s.digits s.length_le
    have hnano : nanosecondsOf s.fraction = ofDigits (nine s.fraction) :=
      nanosecondsOf_eq s.length_le
    have hwrite : Instant.write ⟨86400 * s.date.number + s.clock.seconds,
        nanosecondsOf s.fraction⟩ = s.dateText ++ 'T' :: pointed s.clockText out ++ ['Z'] := by
      have hshown := Time.write_instant s hexists
      rw [Stamp.instant, Int.sub_zero, hout] at hshown
      rw [hshown]
      simp only [pointed, List.append_assoc, List.cons_append, List.nil_append]
    refine ⟨s.date.number, out, Time.counted_iff.mpr ⟨hexists, rfl⟩, hfitted, ?_, ?_, ?_⟩
    · rw [Stamp.instant, Int.sub_zero, ← hnano]
      exact holds_timestamp hwrite
    · rw [← Time.writeDate_stamp]
      exact holds_timestamp (Time.write_midnight hexists)
    · rw [Stamp.instant, hnano]
  · exact ⟨rfl, rfl, rfl⟩

/-- The last half hour of a year, short of half a second. -/
def yearEnd : Stamp where
  year := 2023
  month := 12
  day := 31
  clock := ⟨23, 30, 0⟩
  fraction := ['5']
  year_lt := by norm_num
  month_lt := by norm_num
  day_lt := by norm_num
  hour_lt := by decide
  minute_lt := by decide
  second_lt := by decide
  digits := List.all_eq_true.mp rfl
  length_le := by decide

/-- A leap day, in a year that has none. -/
def leapDay : Stamp :=
  { yearEnd with month := 2, day := 29, month_lt := by norm_num, day_lt := by norm_num }

/-- An hour and a half behind universal time. -/
def behindUniversal : Zone where
  negative := true
  hours := 1
  minutes := some 30
  hours_lt := by decide
  minutes_lt := by decide

/-- An offset moves the last half hour of a year into the next one, and a leap day is kept as a text
in a year that has none. -/
theorem temporalOrText_year_end :
    (∃ (n : Int) (out : List Char), Counted n ⟨2023, 12, 31⟩ ∧ Fitted ['5'] out ∧
      Holds (temporalOrText (.ofOid 1114) "2023-12-31 23:30:00.5") ⟨86400 * n + 84600, 500000000⟩
        ("2023-12-31T".toList ++ pointed "23:30:00".toList out ++ ['Z']) ∧
      temporalOrText (.ofOid 1184) "2023-12-31 23:30:00.5-01:30" =
        .timestamp ⟨86400 * n + 84600 + 5400, 500000000⟩) ∧
      temporalOrText (.ofOid 1082) "2023-02-29" = .string "2023-02-29" := by
  constructor
  · have hstamp := temporalOrText_stamp yearEnd behindUniversal
    rw [if_pos (by decide +kernel)] at hstamp
    obtain ⟨n, out, hcounted, hfitted, htime, _, hzoned⟩ := hstamp
    have hseconds : yearEnd.clock.seconds = 84600 := by decide +kernel
    have hoffset : behindUniversal.seconds = -5400 := by decide +kernel
    have hnano : ofDigits (nine yearEnd.fraction) = 500000000 := by decide +kernel
    have htext : String.ofList yearEnd.text = "2023-12-31 23:30:00.5" := by decide +kernel
    have hzonedText : String.ofList (yearEnd.text ++ behindUniversal.text) =
        "2023-12-31 23:30:00.5-01:30" := by decide +kernel
    have hdate : yearEnd.dateText = "2023-12-31".toList := by decide +kernel
    have hclock : yearEnd.clockText = "23:30:00".toList := by decide +kernel
    rw [htext, hseconds, hnano, hdate, hclock] at htime
    rw [hzonedText, hseconds, hnano, hoffset, Int.sub_neg] at hzoned
    exact ⟨n, out, hcounted, hfitted, htime, hzoned⟩
  · have hstamp := temporalOrText_stamp leapDay behindUniversal
    rw [if_neg (by decide +kernel)] at hstamp
    have hdate : String.ofList leapDay.dateText = "2023-02-29" := by decide +kernel
    rw [hdate] at hstamp
    exact hstamp.2.1

/-- What the offset moves shows itself at the other date. -/
example : (temporalOrText (.ofOid 1184) "2023-12-31 23:30:00.5-01:30").toJson =
    .string "2024-01-01T01:00:00.500Z" := by
  rfl

end Pushdown.Postgres
