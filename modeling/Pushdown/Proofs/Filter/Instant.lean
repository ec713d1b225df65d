import Mathlib
import Pushdown.Proofs.Filter.Grammar
import Pushdown.Proofs.Filter.Operators
import Pushdown.Proofs.Time.Civil
import Pushdown.Value

/-!
# Instants in filters

A column of instants is compared with the text that a row shows for an instant, or with a date. The
operator ends at the white space behind it in whatever spelling it is typed, so the text reads as it
would alone (`read_comparison`). Main statement: the text of an instant of the years 0 to 9999 reads
back as that instant, and a date reads as its midnight (`read_shown_instant`).
-/

namespace Pushdown.Filter

open Number (padded padded_eq_cons isDigit_of_mem_padded)
open Text
open Time (Date Instant Stamp secondNanoseconds)

/-! ## Comparisons -/

/-- A column of instants that a table finds by a name of name characters. -/
structure InstantColumn (table : VirtualTable) (column : VirtualColumn) : Prop where
  found : table.column? column.name = some column
  type : column.hostType = .timestamp
  name_ne : column.name ≠ ""
  name_chars : column.name.toList.all isNameChar = true

/-- The filters that compare a column with a text: the name, a spelling of the operator in any case
of letters, and the text, which may stand between single quotes. -/
inductive Comparison (name : String) (op : Operator) (text : List Char) : String → Prop
  | filter {spelling : String} {typed gap gap' value : List Char} :
      (spelling, op) ∈ spellings → upper typed = spelling.toList → Gap gap → Gap gap' →
      value = text ∨ value = '\'' :: (text ++ ['\'']) →
      Comparison name op text
        (String.ofList (name.toList ++ (gap ++ (typed ++ (gap' ++ value)))))

/-- The qualifier of a column, an operator and an instant, or the refusal of the operator. -/
def answer (table : VirtualTable) (column : String) (op : Operator) (i : Instant) :
    Except Error Qualifier :=
  if accepts table column op then .ok ⟨column, op, some (.timestamp i)⟩
  else .error (.refusedOperator column op)

/-- A text that can be typed without quotes: it is tight and has no quote at its start. -/
structure Bare (text : List Char) : Prop extends Tight text where
  unquoted : text.head? ≠ some '\''

/-- A bare text is what stands between quotes or is typed without them. -/
theorem Bare.unquoted_of_choice {text value : List Char} (hbare : Bare text)
    (h : value = text ∨ value = '\'' :: (text ++ ['\''])) : Unquoted value text := by
  rcases h with rfl | rfl
  · refine .plain fun inner hinner => hbare.unquoted ?_
    rw [hinner]
    rfl
  · exact .quoted text

variable {table : VirtualTable} {column : VirtualColumn} {op : Operator}

/-- A comparison is taken apart into the column, the operator and the text that is typed. -/
theorem read_comparison {text : List Char} {filter : String} (hcolumn : InstantColumn table column)
    (htight : Tight text) (h : Comparison column.name op text filter) :
    ∃ value, (value = text ∨ value = '\'' :: (text ++ ['\''])) ∧ value ≠ [] ∧
      read table filter = qualify table column op value := by
  obtain ⟨hlisted, htyped, hgap, hgap', hvalue⟩ := h
  rename_i spelling typed gap gap' value
  have hends : Tight value := by
    rcases hvalue with rfl | rfl
    · exact htight
    · exact tight_ends text rfl rfl
  have htrim : trim (gap' ++ value) = value := by
    have hspaced : Spaced (gap' ++ (value ++ [])) value :=
      .around hgap'.blank (List.forall_mem_nil _)
    rw [List.append_nil] at hspaced
    exact hspaced.trim hends.ne_nil hends.first hends.last
  have hsplit : splitOperator (typed ++ (gap' ++ value)) = .ok (op, value) := by
    rw [splitOperator_of_gap hlisted htyped hgap', htrim]
  refine ⟨value, hvalue, hends.ne_nil, ?_⟩
  rw [read_name hcolumn.found hcolumn.name_ne hcolumn.name_chars hgap
    ((tight_typed hlisted htyped).between gap' hends), hsplit]
  rfl

/-- A comparison with a text that reads as an instant is answered with that instant. -/
theorem read_comparison_instant {text : List Char} {filter : String} {i : Instant}
    (hcolumn : InstantColumn table column) (hop : op.isUnary = false) (hbare : Bare text)
    (hread : readInstant text = .ok i)
    (h : Comparison column.name op text filter) :
    read table filter = answer table column.name op i := by
  obtain ⟨value, hvalue, hne, hfilter⟩ := read_comparison hcolumn hbare.toTight h
  have hunquoted : unquote value = text := unquoted_iff.mp (hbare.unquoted_of_choice hvalue)
  have hliteral : readValue column.hostType value = .ok (.timestamp i) := by
    rw [hcolumn.type]
    simp only [readValue, hunquoted, hread]
  rw [hfilter, qualify, answer, hliteral, hop]
  cases accepts table column.name op with
  | false => rfl
  | true =>
    rw [if_neg (by decide), if_neg (by decide), if_neg (by simpa using hne), if_pos rfl]
    rfl

/-! ## Texts -/

/-- The text of an instant reads back. -/
theorem readInstant_write {i : Instant} (hnano : i.nanoseconds < secondNanoseconds)
    (hfirst : 0 ≤ i.date.year) (hlast : i.date.year ≤ 9999) : readInstant i.write = .ok i := by
  have hends : Time.EndsFraction ['Z'] := stops_cons _ rfl
  have hfraction := Time.readFraction_writeFraction hnano hends
  have hstrict : Time.readStrict i.write = .ok i := by
    apply Time.readStrict_writeWith (.inl hnano) hfirst hlast
    rw [Nat.mod_eq_of_lt hnano]
    exact hfraction
  unfold readInstant
  rw [hstrict]

/-- A date of the calendar with a year of four digits as a stamp at midnight. -/
theorem exists_stamp {d : Date} (hexists : d.exists = true) (hfirst : 0 ≤ d.year)
    (hlast : d.year ≤ 9999) : ∃ s : Stamp, s.date = d := by
  obtain ⟨hmonth, hmonth', hday, hday'⟩ := Date.bounds hexists
  refine ⟨⟨d.year.toNat, d.month, d.day, Time.midnight, [], ?_, ?_, ?_, ?_, ?_, ?_, ?_, ?_⟩, ?_⟩
  · omega
  · omega
  · omega
  · decide
  · decide
  · decide
  · exact List.forall_mem_nil _
  · decide
  · show Date.mk (d.year.toNat : Int) d.month d.day = d
    rw [Int.toNat_of_nonneg hfirst]

variable {d : Date}

/-- The strict notation has no dates without a time of day. -/
theorem readStrict_dateText {s : Stamp} (hexists : s.date.exists = true) :
    Time.readStrict s.dateText = .error .tooShort := by
  obtain ⟨⟨hmonth, hmonth'⟩, hday, hday'⟩ := Stamp.ranges hexists
  have hyears (rest : List Char) : Time.readExactly 4 0 9999 (padded 4 s.year ++ rest) =
      .ok (s.year, rest) :=
    Time.readExactly_padded (by decide) s.year_lt (Nat.zero_le _) (Nat.le_of_lt_succ s.year_lt) rest
  have hmonths (rest : List Char) : Time.readExactly 2 1 12 (padded 2 s.month ++ rest) =
      .ok (s.month, rest) :=
    Time.readExactly_padded (by decide) s.month_lt hmonth hmonth' rest
  have hdays : Time.readExactly 2 1 31 (padded 2 s.day) = .ok (s.day, []) := by
    have hread := Time.readExactly_padded (by decide) s.day_lt hday hday' []
    rwa [List.append_nil] at hread
  unfold Time.readStrict Stamp.dateText
  simp only [List.append_assoc, List.cons_append, hyears, hmonths, hdays, Time.readMark_cons, bind,
    Except.bind]
  rfl

/-- A date reads as its midnight. -/
theorem readInstant_writeDate (hexists : d.exists = true) (hfirst : 0 ≤ d.year)
    (hlast : d.year ≤ 9999) : readInstant (Instant.writeDate d) = .ok ⟨86400 * d.number, 0⟩ := by
  obtain ⟨s, rfl⟩ := exists_stamp hexists hfirst hlast
  unfold readInstant
  rw [Time.writeDate_stamp, readStrict_dateText hexists, Time.readDay_stamp, if_pos hexists]

/-- A padded number can be typed without quotes. -/
theorem bare_padded (width n : Nat) : Bare (padded width n) := by
  obtain ⟨c, ds, hpadded, hc⟩ := padded_eq_cons width n
  refine ⟨tight_of_forall ?_ fun c hc => Number.isBlank_of_isDigit (isDigit_of_mem_padded c hc), ?_⟩
  · rw [hpadded]
    exact List.cons_ne_nil _ _
  · rw [hpadded]
    rintro ⟨rfl⟩
    cases hc

theorem Bare.between {s t : List Char} (hs : Bare s) (between : List Char) (ht : Tight t) :
    Bare (s ++ (between ++ t)) := by
  refine ⟨hs.toTight.between between ht, ?_⟩
  rw [List.head?_append_of_ne_nil _ hs.ne_nil]
  exact hs.unquoted

/-- A written date starts and ends with a digit. -/
theorem bare_writeDate (hexists : d.exists = true) (hfirst : 0 ≤ d.year) (hlast : d.year ≤ 9999) :
    Bare (Instant.writeDate d) := by
  obtain ⟨s, rfl⟩ := exists_stamp hexists hfirst hlast
  have hends := (bare_padded 4 s.year).between ('-' :: padded 2 s.month ++ ['-'])
    (bare_padded 2 s.day).toTight
  rw [Time.writeDate_stamp, Stamp.dateText]
  simpa using hends

/-- A written instant starts with a digit and ends with a letter. -/
theorem bare_write {i : Instant} (hfirst : 0 ≤ i.date.year) (hlast : i.date.year ≤ 9999) :
    Bare i.write := by
  have hdate : Bare (Instant.writeDate i.date) :=
    bare_writeDate (Time.exists_ofNumber _) hfirst hlast
  have hends := hdate.between ('T' :: Instant.writeClock i.clock ++
    Instant.writeFraction (i.nanoseconds % secondNanoseconds)) (t := ['Z'])
    ⟨List.cons_ne_nil _ _, stops_cons _ rfl, stops_cons _ rfl⟩
  rw [Instant.write, Instant.writeWith]
  simpa using hends

/-! ## Typing what is shown -/

/-- The text that a row shows for an instant of the years 0 to 9999 reads back as the instant, alone
and in every comparison, with quotes or without them. A date stands for its midnight, whose text is
the date with a time of day behind it. -/
theorem read_shown_instant :
    (∀ i : Instant, i.nanoseconds < secondNanoseconds → 0 ≤ i.date.year → i.date.year ≤ 9999 →
      ∃ text, (Value.timestamp i).toJson = .string text ∧ readInstant text.toList = .ok i ∧
        ∀ table column op filter, InstantColumn table column → op.isUnary = false →
          Comparison column.name op text.toList filter →
            read table filter = answer table column.name op i) ∧
      ∀ d : Date, d.exists = true → 0 ≤ d.year → d.year ≤ 9999 →
        ∀ table column op bare full, InstantColumn table column → op.isUnary = false →
          Comparison column.name op (Instant.writeDate d) bare →
          Comparison column.name op (Instant.writeDate d ++ "T00:00:00Z".toList) full →
            read table bare = answer table column.name op ⟨86400 * d.number, 0⟩ ∧
              read table full = read table bare := by
  constructor
  · intro i hnano hfirst hlast
    have hread := readInstant_write hnano hfirst hlast
    have hbare := bare_write hfirst hlast
    refine ⟨String.ofList i.write, rfl, ?_, ?_⟩
    · rw [String.toList_ofList, hread]
    · intro table column op filter hcolumn hop hcomparison
      rw [String.toList_ofList] at hcomparison
      exact read_comparison_instant hcolumn hop hbare hread hcomparison
  · intro d hexists hfirst hlast table column op bare full hcolumn hop hdate hmidnight
    have hbare := read_comparison_instant hcolumn hop (bare_writeDate hexists hfirst hlast)
      (readInstant_writeDate hexists hfirst hlast) hdate
    -- The text with the time of day is the one that is shown for the midnight.
    have hday : Instant.date ⟨86400 * d.number, 0⟩ = d := (Time.date_clock_midnight hexists).1
    rw [← hday] at hfirst hlast
    rw [← Time.write_midnight hexists] at hmidnight
    have hfull := read_comparison_instant hcolumn hop (bare_write hfirst hlast)
      (readInstant_write (show 0 < secondNanoseconds by decide) hfirst hlast) hmidnight
    exact ⟨hbare, hfull.trans hbare.symm⟩

/-- The last nanosecond before 1970, in quotes, and the leap day of the year 0, without them. -/
theorem read_shown_instant_before :
    let table := VirtualTable.synthesize
      ⟨"events", none, [⟨"at", ⟨.time, "timestamptz"⟩, none⟩]⟩
    read table "at >= '1969-12-31T23:59:59.999999999Z'" =
        .ok ⟨"at", .greaterEqual, some (.timestamp ⟨-1, 999999999⟩)⟩ ∧
      read table "at <> 0000-02-29" =
        .ok ⟨"at", .notEqual, some (.timestamp ⟨-62162121600, 0⟩)⟩ ∧
      read table "at\t!=  0000-02-29T00:00:00Z" = read table "at <> 0000-02-29" := by
  intro table
  have hcolumn : InstantColumn table ⟨"at", .timestamp, ""⟩ := ⟨rfl, rfl, by decide, by decide⟩
  have hgap : Gap ['\t'] := ⟨by decide, List.all_eq_true.mp rfl⟩
  have hgap' : Gap [' ', ' '] := ⟨by decide, List.all_eq_true.mp rfl⟩
  obtain ⟨hinstant, hdate⟩ := read_shown_instant
  obtain ⟨text, htext, -, hshown⟩ := hinstant ⟨-1, 999999999⟩ (by decide) (by decide +kernel)
    (by decide +kernel)
  obtain rfl : _ = text := Json.string.inj htext
  have hquoted := hshown table _ .greaterEqual _ hcolumn rfl
    (@Comparison.filter "at" _ _ ">=" ['>', '='] [' '] [' '] _ (by decide) rfl gap_space gap_space
      (.inr rfl))
  obtain ⟨hbare, hfull⟩ := hdate ⟨0, 2, 29⟩ (by decide) (by decide) (by decide) table _ .notEqual
    _ _ hcolumn rfl
    (@Comparison.filter "at" _ _ "<>" ['<', '>'] [' '] [' '] _ (by decide) rfl gap_space gap_space
      (.inl rfl))
    (@Comparison.filter "at" _ _ "!=" ['!', '='] ['\t'] [' ', ' '] _ (by decide) rfl hgap hgap'
      (.inl rfl))
  exact ⟨hquoted, hbare, hfull⟩

end Pushdown.Filter
