import Mathlib
import Pushdown.Time.Calendar

/-!
# Days and dates

Every day has a date in the calendar. The start of a year is never far from the mean length of a
year times the number of years before it (`mean_yearStart`), so the estimate of the year of a day is
off by at most one (`yearOfDay_spec`). Main statements: the date of a day is in the calendar and its
number is the day (`exists_ofNumber`, `number_ofNumber`), a date of the calendar is the date of its
number (`ofNumber_number`), and the numbers are those of counting the days one by one
(`counted_iff`).
-/

namespace Pushdown.Time

/-! ## Years -/

theorem totalDays_monthLengths (leap : Bool) :
    totalDays (monthLengths leap) = if leap then 366 else 365 := by
  cases leap <;> rfl

/-- The next year starts behind the last month. -/
theorem yearStart_succ (year : Int) :
    yearStart (year + 1) = yearStart year + totalDays (monthLengths (isLeap year)) := by
  rw [totalDays_monthLengths]
  by_cases hleap : isLeap year = true
  · rw [if_pos hleap]
    simp only [isLeap, Bool.and_eq_true, Bool.or_eq_true, decide_eq_true_eq] at hleap
    simp only [yearStart]
    omega
  · rw [if_neg hleap]
    simp only [isLeap, Bool.and_eq_true, Bool.or_eq_true, decide_eq_true_eq] at hleap
    simp only [yearStart]
    omega

/-- Four hundred years have 146097 days, and the start of a year is less than two days away from
where this puts it. -/
theorem mean_yearStart (year : Int) :
    146097 * (year - 1) - 699 ≤ 400 * (yearStart year + 719162) ∧
      400 * (yearStart year + 719162) ≤ 146097 * (year - 1) + 396 := by
  simp only [yearStart]
  omega

/-- A day lies in its year. -/
theorem yearOfDay_spec (n : Int) :
    yearStart (yearOfDay n) ≤ n ∧ n < yearStart (yearOfDay n + 1) := by
  simp only [yearOfDay]
  generalize hestimate : 400 * (n + 719162) / 146097 + 1 = estimate
  -- A year is far longer than the starts are away from the mean, so one year each way is enough.
  have hbefore := mean_yearStart (estimate - 1)
  have hbehind := mean_yearStart (estimate + 2)
  split
  · rename_i hlow
    rw [Int.sub_add_cancel]
    refine ⟨?_, hlow⟩
    omega
  · rename_i hlow
    split
    · rename_i hhigh
      refine ⟨hhigh, ?_⟩
      rw [Int.add_assoc]
      show n < yearStart (estimate + 2)
      omega
    · rename_i hhigh
      exact ⟨Int.not_lt.mp hlow, Int.not_le.mp hhigh⟩

/-! ## Months -/

/-- A day of a year lies in one of its months, and the months before it make up for the rest. -/
theorem monthOfDay_spec (month : Nat) {lengths : List Nat} {n : Nat} (h : n < totalDays lengths) :
    ∃ before length after day, lengths = before ++ length :: after ∧ day < length ∧
      n = totalDays before + day ∧
      monthOfDay month lengths n = (month + before.length, day + 1) := by
  induction lengths generalizing month n with
  | nil => exact absurd h (Nat.not_lt_zero n)
  | cons length rest ih =>
    have htotal : totalDays (length :: rest) = length + totalDays rest := rfl
    rw [monthOfDay]
    split
    · rename_i hday
      exact ⟨[], length, rest, n, rfl, hday, (Nat.zero_add n).symm, rfl⟩
    · rename_i hmore
      obtain ⟨before, length', after, day, hrest, hday, hn, hmonth⟩ :=
        ih (month + 1) (n := n - length) (by omega)
      have hbefore : totalDays (length :: before) = length + totalDays before := rfl
      refine ⟨length :: before, length', after, day, by rw [hrest, List.cons_append], hday, ?_, ?_⟩
      · omega
      · rw [hmonth, List.length_cons, Nat.add_assoc, Nat.add_comm 1]

/-- The date of a day, taken apart: the months before it and the day in its month. -/
theorem ofNumber_spec (n : Int) :
    ∃ (before : List Nat) (length : Nat) (after : List Nat) (day : Nat),
      monthLengths (isLeap (yearOfDay n)) = before ++ length :: after ∧ day < length ∧
        n = yearStart (yearOfDay n) + totalDays before + day ∧
        Date.ofNumber n = ⟨yearOfDay n, 1 + before.length, day + 1⟩ := by
  obtain ⟨hlow, hhigh⟩ := yearOfDay_spec n
  rw [yearStart_succ] at hhigh
  have hwithin : (n - yearStart (yearOfDay n)).toNat <
      totalDays (monthLengths (isLeap (yearOfDay n))) := by
    omega
  obtain ⟨before, length, after, day, hlengths, hday, hn, hmonth⟩ := monthOfDay_spec 1 hwithin
  refine ⟨before, length, after, day, hlengths, hday, by omega, ?_⟩
  simp only [Date.ofNumber, hmonth]

/-! ## Dates -/

/-- The calendar has the date of every day. -/
theorem exists_ofNumber (n : Int) : (Date.ofNumber n).exists = true := by
  obtain ⟨before, length, after, day, hlengths, hday, _, hdate⟩ := ofNumber_spec n
  rw [hdate, Date.exists]
  simp only [Nat.add_sub_cancel_left, hlengths, List.getElem?_append_right, Nat.le_refl,
    Nat.sub_self, List.getElem?_cons_zero, Bool.and_eq_true, decide_eq_true_eq]
  omega

/-- The number of the date of a day is the day. -/
theorem number_ofNumber (n : Int) : (Date.ofNumber n).number = n := by
  obtain ⟨before, length, after, day, hlengths, _, hn, hdate⟩ := ofNumber_spec n
  rw [hdate, Date.number]
  simp only [Nat.add_sub_cancel_left, hlengths, List.take_left]
  omega

/-! ## Dates and their numbers -/

/-- Years start one after the other. -/
theorem yearStart_lt {a b : Int} (h : a < b) : yearStart a < yearStart b := by
  have ha := mean_yearStart a
  have hb := mean_yearStart b
  omega

/-- A day lies in one year only. -/
theorem yearOfDay_eq {year n : Int} (hlow : yearStart year ≤ n) (hhigh : n < yearStart (year + 1)) :
    yearOfDay n = year := by
  obtain ⟨hlow', hhigh'⟩ := yearOfDay_spec n
  rcases lt_trichotomy (yearOfDay n) year with hlt | heq | hgt
  · have hle : yearStart (yearOfDay n + 1) ≤ yearStart year := by
      rcases (Int.add_one_le_of_lt hlt).lt_or_eq with hlt' | heq
      · exact (yearStart_lt hlt').le
      · rw [heq]
    omega
  · exact heq
  · have hle : yearStart (year + 1) ≤ yearStart (yearOfDay n) := by
      rcases (Int.add_one_le_of_lt hgt).lt_or_eq with hlt' | heq
      · exact (yearStart_lt hlt').le
      · rw [heq]
    omega

theorem totalDays_append (before after : List Nat) :
    totalDays (before ++ after) = totalDays before + totalDays after := by
  induction before with
  | nil => exact (Nat.zero_add _).symm
  | cons length before ih =>
    show length + totalDays (before ++ after) = length + totalDays before + totalDays after
    rw [ih, Nat.add_assoc]

/-- A day behind some whole months lies in the month that comes next. -/
theorem monthOfDay_append (month : Nat) (before : List Nat) {length day : Nat} (after : List Nat)
    (hday : day < length) :
    monthOfDay month (before ++ length :: after) (totalDays before + day) =
      (month + before.length, day + 1) := by
  induction before generalizing month with
  | nil =>
    show monthOfDay month (length :: after) (0 + day) = (month + 0, day + 1)
    rw [Nat.zero_add, Nat.add_zero, monthOfDay, if_pos hday]
  | cons first before ih =>
    have htotal : totalDays (first :: before) = first + totalDays before := rfl
    rw [List.cons_append, monthOfDay, htotal, if_neg (by omega),
      show first + totalDays before + day - first = totalDays before + day by omega,
      ih (month + 1), List.length_cons]
    congr 1
    omega

/-- A date of the calendar, taken apart: the months before it, the length of its month and the
months behind. -/
theorem Date.parts {d : Date} (h : d.exists = true) :
    ∃ (before : List Nat) (length : Nat) (after : List Nat),
      monthLengths (isLeap d.year) = before ++ length :: after ∧ d.month = 1 + before.length ∧
        1 ≤ d.day ∧ d.day ≤ length ∧ d.number = yearStart d.year + totalDays before + d.day - 1 := by
  simp only [Date.exists, Bool.and_eq_true, decide_eq_true_eq] at h
  obtain ⟨⟨hmonth, hday⟩, hlength⟩ := h
  split at hlength
  · rename_i length hget
    obtain ⟨hindex, hmem⟩ := List.getElem?_eq_some_iff.mp hget
    refine ⟨(monthLengths (isLeap d.year)).take (d.month - 1), length,
      (monthLengths (isLeap d.year)).drop (d.month - 1 + 1), ?_, ?_, hday,
      of_decide_eq_true hlength, rfl⟩
    · rw [← hmem, List.getElem_cons_drop, List.take_append_drop]
    · rw [List.length_take]
      omega
  · exact Bool.noConfusion hlength

/-- A month has at least one and at most 31 days. -/
theorem bounds_of_mem_monthLengths {leap : Bool} {length : Nat} (h : length ∈ monthLengths leap) :
    1 ≤ length ∧ length ≤ 31 := by
  have hall : (monthLengths leap).all (fun length => 1 ≤ length ∧ length ≤ 31) = true := by
    cases leap <;> decide
  exact of_decide_eq_true (List.all_eq_true.mp hall length h)

/-- A date of the calendar has one of twelve months and at most 31 days. -/
theorem Date.bounds {d : Date} (h : d.exists = true) :
    1 ≤ d.month ∧ d.month ≤ 12 ∧ 1 ≤ d.day ∧ d.day ≤ 31 := by
  obtain ⟨before, length, after, hlengths, hmonth, hday, hday', -⟩ := Date.parts h
  have hcount : (monthLengths (isLeap d.year)).length = 12 := rfl
  have hmem : length ∈ monthLengths (isLeap d.year) := by
    rw [hlengths]
    exact List.mem_append_cons_self
  have hlongest := (bounds_of_mem_monthLengths hmem).2
  rw [hlengths, List.length_append, List.length_cons] at hcount
  omega

/-- A date of the calendar lies in its year. -/
theorem Date.number_within {d : Date} (h : d.exists = true) :
    yearStart d.year ≤ d.number ∧ d.number < yearStart (d.year + 1) := by
  obtain ⟨before, length, after, hlengths, _, hday, hday', hnumber⟩ := Date.parts h
  have htotal : totalDays (monthLengths (isLeap d.year)) =
      totalDays before + (length + totalDays after) := by
    rw [hlengths, totalDays_append]
    rfl
  rw [yearStart_succ]
  omega

/-- A date of the calendar is the date of its number. -/
theorem ofNumber_number {d : Date} (h : d.exists = true) : Date.ofNumber d.number = d := by
  obtain ⟨before, length, after, hlengths, hmonth, hday, hday', hnumber⟩ := Date.parts h
  obtain ⟨hfirst, hlast⟩ := Date.number_within h
  have hyear : yearOfDay d.number = d.year := yearOfDay_eq hfirst hlast
  have hwithin : (d.number - yearStart d.year).toNat = totalDays before + (d.day - 1) := by omega
  obtain ⟨year, month, day⟩ := d
  simp only [Date.ofNumber, hyear, hwithin]
  simp only at hlengths hmonth hday hday'
  rw [hlengths, monthOfDay_append 1 before after (by omega)]
  simp only [Date.mk.injEq, true_and]
  omega

/-! ## Counting days -/

/-- The date behind a date: the next day of its month, or else the first of the next month. -/
def Date.next (d : Date) : Date :=
  if { d with day := d.day + 1 }.exists then { d with day := d.day + 1 }
  else if { d with month := d.month + 1, day := 1 }.exists then
    { d with month := d.month + 1, day := 1 }
  else ⟨d.year + 1, 1, 1⟩

/-- The dates with their distance from the first of January 1970, counted day by day. -/
inductive Counted : Int → Date → Prop
  | epoch : Counted 0 ⟨1970, 1, 1⟩
  | behind {n : Int} {d : Date} : Counted n d → Counted (n + 1) d.next
  | before {n : Int} {d : Date} : d.exists = true → Counted (n + 1) d.next → Counted n d

theorem exists_of_parts {year : Int} {before after : List Nat} {length day : Nat}
    (h : monthLengths (isLeap year) = before ++ length :: after) (hday : 1 ≤ day)
    (hday' : day ≤ length) : (Date.mk year (1 + before.length) day).exists = true := by
  simp only [Date.exists, h, Nat.add_sub_cancel_left, List.getElem?_append_right, Nat.le_refl,
    Nat.sub_self, List.getElem?_cons_zero, Bool.and_eq_true, decide_eq_true_eq]
  omega

theorem number_of_parts {year : Int} {before after : List Nat} {length : Nat} (day : Nat)
    (h : monthLengths (isLeap year) = before ++ length :: after) :
    (Date.mk year (1 + before.length) day).number =
      yearStart year + totalDays before + day - 1 := by
  simp only [Date.number, h, Nat.add_sub_cancel_left, List.take_left]

section Next

variable {year : Int} {before after : List Nat} {length day : Nat}

/-- Within a month the next day has the next number. -/
theorem number_next_day (h : monthLengths (isLeap year) = before ++ length :: after) :
    (Date.mk year (1 + before.length) (day + 1)).number =
      (Date.mk year (1 + before.length) day).number + 1 := by
  rw [number_of_parts _ h, number_of_parts _ h]
  omega

/-- The first of a month is the day behind the last of the month before. -/
theorem number_next_month {length' : Nat}
    (h : monthLengths (isLeap year) = before ++ length :: length' :: after) :
    (Date.mk year (1 + before.length + 1) 1).exists = true ∧
      (Date.mk year (1 + before.length + 1) 1).number =
        (Date.mk year (1 + before.length) length).number + 1 := by
  have h' : monthLengths (isLeap year) = (before ++ [length]) ++ length' :: after := by
    rw [h, List.append_assoc]
    rfl
  have hbefore : totalDays (before ++ [length]) = totalDays before + length :=
    totalDays_append before [length]
  have hcount : 1 + before.length + 1 = 1 + (before ++ [length]).length := by
    rw [List.length_append, List.length_singleton, Nat.add_assoc]
  have hpos : 1 ≤ length' :=
    (bounds_of_mem_monthLengths (by rw [h']; exact List.mem_append_cons_self)).1
  rw [hcount]
  refine ⟨exists_of_parts h' (Nat.le_refl 1) hpos, ?_⟩
  rw [number_of_parts _ h', number_of_parts _ h, hbefore]
  omega

/-- The first of January is the day behind the last of the last month. -/
theorem number_next_year (h : monthLengths (isLeap year) = before ++ [length]) :
    (Date.mk (year + 1) 1 1).exists = true ∧
      (Date.mk (year + 1) 1 1).number = (Date.mk year (1 + before.length) length).number + 1 := by
  have hfirst : monthLengths (isLeap (year + 1)) =
      [] ++ 31 :: (monthLengths (isLeap (year + 1))).tail := rfl
  have htotal : totalDays (monthLengths (isLeap year)) = totalDays before + length := by
    rw [h, totalDays_append]
    rfl
  have hnumber := number_of_parts 1 hfirst
  refine ⟨exists_of_parts hfirst (by decide) (by decide), ?_⟩
  rw [List.length_nil] at hnumber
  rw [hnumber, number_of_parts _ h, yearStart_succ, htotal]
  show _ + ((0 : Nat) : Int) + _ - 1 = _
  omega

end Next

/-- The date behind a date has the next number. -/
theorem number_next {d : Date} (h : d.exists = true) :
    d.next.exists = true ∧ d.next.number = d.number + 1 := by
  obtain ⟨before, length, after, hlengths, hmonth, hday, hday', -⟩ := Date.parts h
  obtain ⟨year, month, day⟩ := d
  simp only at hlengths hmonth hday hday'
  subst hmonth
  unfold Date.next
  dsimp only
  split
  · rename_i hnext
    exact ⟨hnext, number_next_day hlengths⟩
  · rename_i hlast
    obtain rfl : day = length := by
      by_contra hne
      exact hlast (exists_of_parts hlengths (by omega) (by omega))
    cases after with
    | cons length' after =>
      rw [if_pos (number_next_month hlengths).1]
      exact number_next_month hlengths
    | nil =>
      have hnone : ¬ (Date.mk year (1 + before.length + 1) 1).exists = true := by
        simp [Date.exists, hlengths]
      rw [if_neg hnone]
      exact number_next_year hlengths

theorem next_ofNumber (n : Int) : (Date.ofNumber n).next = Date.ofNumber (n + 1) := by
  obtain ⟨hexists, hnumber⟩ := number_next (exists_ofNumber n)
  rw [number_ofNumber] at hnumber
  rw [← hnumber, ofNumber_number hexists]

theorem counted_ofNumber (n : Int) : Counted n (Date.ofNumber n) := by
  induction n using Int.induction_on with
  | zero => exact .epoch
  | succ n ih =>
    rw [← next_ofNumber]
    exact .behind ih
  | pred n ih =>
    refine .before (exists_ofNumber _) ?_
    rw [next_ofNumber, Int.sub_add_cancel]
    exact ih

/-- The dates that are counted are those of the calendar, each with its number. -/
theorem counted_iff {n : Int} {d : Date} : Counted n d ↔ d.exists = true ∧ d.number = n := by
  constructor
  · intro h
    induction h with
    | epoch => exact ⟨by decide, by decide⟩
    | behind _ ih =>
      obtain ⟨hexists, rfl⟩ := ih
      exact number_next hexists
    | before hexists _ ih =>
      refine ⟨hexists, ?_⟩
      have hnext := (number_next hexists).2
      omega
  · rintro ⟨hexists, rfl⟩
    have hcounted := counted_ofNumber d.number
    rwa [ofNumber_number hexists] at hcounted

end Pushdown.Time
