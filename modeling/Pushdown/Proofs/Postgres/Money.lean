import Mathlib
import Pushdown.Postgres.Money
import Pushdown.Proofs.Number.Literal
import Pushdown.Proofs.Number.Whole

/-!
# The grammar of amounts of money

`Money` says which texts are amounts: dollars with or without cents, alone, behind a minus sign or
between parentheses, and white space around the whole and just inside the parentheses. A text that
is both negative twice over, or whose commas stand anywhere but in front of groups of three, is
none. Main statement: a cell that is no float literal is a number exactly if its text is an amount,
and the number is that of the digits with the commas left out; any other text is kept as it is
(`numberOrText_money`).
-/

namespace Pushdown.Postgres

open Number Text

/-! ## Amounts -/

/-- A whole number of dollars and its digits: digits alone, or up to three of them and then groups
of three, with commas in between. -/
inductive Grouped : List Char → List Char → Prop
  | plain {ds : List Char} : IsDigits ds → Grouped ds ds
  | groups {first : List Char} {groups : List (List Char)} : IsDigits first → first.length ≤ 3 →
      groups ≠ [] → (∀ g ∈ groups, IsDigits g ∧ g.length = 3) →
      Grouped ([','].intercalate (first :: groups)) (first ++ groups.flatten)

/-- Dollars, with cents behind a point if there are any, and the digits of both. -/
inductive Dollars : List Char → List Char → List Char → Prop
  | dollars {s whole cents : List Char} : Grouped s whole → (∀ c ∈ cents, c.isDigit = true) →
      Dollars ('$' :: pointed s cents) whole cents

/-- An amount, with whether it is negative and the digits of its dollars and cents. -/
inductive Amount : List Char → Bool → List Char → List Char → Prop
  | bare {s whole cents : List Char} : Dollars s whole cents → Amount s false whole cents
  | minus {s whole cents : List Char} : Dollars s whole cents → Amount ('-' :: s) true whole cents
  | parentheses {s inner whole cents : List Char} : Spaced inner s → Dollars s whole cents →
      Amount ('(' :: (inner ++ [')'])) true whole cents

/-- The texts of amounts: an amount with white space around it. -/
inductive Money : List Char → Bool → List Char → List Char → Prop
  | spaced {text s whole cents : List Char} {negative : Bool} : Spaced text s →
      Amount s negative whole cents → Money text negative whole cents

/-! ## Parts between commas -/

/-- The parts of a text are those that lists are split into. -/
theorem splitAll_eq_splitOn (separator : Char) (s : List Char) :
    splitAll separator s = s.splitOn separator := by
  induction s with
  | nil => rfl
  | cons c s ih =>
    rw [splitAll, ih]
    simp only [List.splitOn_eq_splitOnP, List.splitOnP_cons_eq_if_modifyHead, beq_iff_eq]
    cases hparts : List.splitOnP (fun x => x == separator) s with
    | nil => exact absurd hparts (List.splitOnP_ne_nil _ _)
    | cons part parts => rfl

theorem comma_notMem {ds : List Char} (h : IsDigits ds) : ',' ∉ ds := by
  intro hmem
  exact absurd (h.2 ',' hmem) (by decide)

theorem isDigits_iff {ds : List Char} :
    (ds.isEmpty || !ds.all Char.isDigit) = false ↔ IsDigits ds := by
  simp [IsDigits]

/-- The check of grouped digits finds out whether there are up to three and then groups of three. -/
theorem grouped_iff {first : List Char} {groups : List (List Char)} :
    ((first.isEmpty || 3 < first.length || !first.all Char.isDigit) = false ∧
      (groups.all fun g => g.length = 3 && g.all Char.isDigit) = true) ↔
      IsDigits first ∧ first.length ≤ 3 ∧ ∀ g ∈ groups, IsDigits g ∧ g.length = 3 := by
  have hgroup : ∀ g : List Char, (g.length = 3 && g.all Char.isDigit) = true ↔
      IsDigits g ∧ g.length = 3 := by
    intro g
    rw [Bool.and_eq_true, decide_eq_true_eq, List.all_eq_true, and_comm]
    refine and_congr_left fun hlength => ?_
    exact ⟨fun h => ⟨List.ne_nil_of_length_eq_add_one hlength, h⟩, fun h => h.2⟩
  have hfirst : (first.isEmpty || 3 < first.length || !first.all Char.isDigit) = false ↔
      IsDigits first ∧ first.length ≤ 3 := by
    simp only [IsDigits, Bool.or_eq_false_iff, List.isEmpty_eq_false_iff, decide_eq_false_iff_not,
      not_lt, Bool.not_eq_false', List.all_eq_true]
    exact and_right_comm
  rw [hfirst, List.all_eq_true, and_assoc]
  simp only [hgroup]

/-- A whole amount that is read is grouped or not. -/
theorem grouped_of_wholeAmount? {s digits : List Char} (h : wholeAmount? s = some digits) :
    Grouped s digits := by
  -- The text is its parts with commas in between, so the parts say what it looks like.
  have hjoined : [','].intercalate (s.splitOn ',') = s := List.intercalate_splitOn ','
  rw [wholeAmount?, splitAll_eq_splitOn] at h
  split at h
  · cases h
  · rename_i ds hparts
    rw [hparts, List.intercalate_singleton] at hjoined
    split at h
    · cases h
    · rename_i hdigits
      obtain rfl := Option.some.inj h
      rw [← hjoined]
      exact .plain (isDigits_iff.mp (by simpa using hdigits))
  · rename_i first groups hgroups hparts
    rw [hparts] at hjoined
    split at h
    · cases h
    · rename_i hfirst
      split at h
      · rename_i hall
        obtain rfl := Option.some.inj h
        obtain ⟨hdigits, hlength, hthree⟩ :=
          grouped_iff.mp ⟨Bool.eq_false_iff.mpr hfirst, hall⟩
        rw [← hjoined]
        exact .groups hdigits hlength (fun hnil => hgroups hnil) hthree
      · cases h

/-- The digits of a whole amount are read, with or without commas. -/
theorem wholeAmount?_of_grouped {s digits : List Char} (h : Grouped s digits) :
    wholeAmount? s = some digits := by
  rw [wholeAmount?, splitAll_eq_splitOn]
  cases h with
  | plain hdigits =>
    have hsplit : List.splitOn ',' ([','].intercalate [s]) = [s] :=
      List.splitOn_intercalate ',' (List.forall_mem_singleton.mpr (comma_notMem hdigits))
        (List.cons_ne_nil _ _)
    rw [List.intercalate_singleton] at hsplit
    rw [hsplit]
    dsimp only
    rw [isDigits_iff.mpr hdigits, if_neg Bool.false_ne_true]
  | @groups first groups hfirst hlength hne hgroups =>
    have hcommas : ∀ part ∈ first :: groups, ',' ∉ part :=
      List.forall_mem_cons.mpr ⟨comma_notMem hfirst, fun g hg => comma_notMem (hgroups g hg).1⟩
    obtain ⟨hhead, hall⟩ := grouped_iff.mpr ⟨hfirst, hlength, hgroups⟩
    rw [List.splitOn_intercalate ',' hcommas (List.cons_ne_nil _ _)]
    cases groups with
    | nil => exact absurd rfl hne
    | cons g groups =>
      dsimp only
      rw [hhead, hall]
      rfl

/-! ## Dollars -/

/-- Grouped digits are digits and commas. -/
theorem Grouped.digit_or_comma {s digits : List Char} (h : Grouped s digits) :
    ∀ c ∈ s, c.isDigit = true ∨ c = ',' := by
  have hjoined : ∀ parts : List (List Char), (∀ part ∈ parts, IsDigits part) →
      ∀ c ∈ [','].intercalate parts, c.isDigit = true ∨ c = ',' := by
    intro parts hparts c hc
    induction parts with
    | nil => cases hc
    | cons part parts ih =>
      obtain ⟨hpart, hrest⟩ := List.forall_mem_cons.mp hparts
      cases parts with
      | nil =>
        rw [List.intercalate_singleton] at hc
        exact .inl (hpart.2 c hc)
      | cons next parts =>
        rw [List.intercalate_cons_cons, List.append_assoc, List.mem_append, List.mem_append] at hc
        rcases hc with hc | hc | hc
        · exact .inl (hpart.2 c hc)
        · exact .inr (List.mem_singleton.mp hc)
        · exact ih hrest hc
  cases h with
  | plain hdigits => exact fun c hc => .inl (hdigits.2 c hc)
  | groups hfirst _ _ hgroups =>
    exact hjoined _ (List.forall_mem_cons.mpr ⟨hfirst, fun g hg => (hgroups g hg).1⟩)

/-- The digits of grouped digits. -/
theorem Grouped.isDigits {s digits : List Char} (h : Grouped s digits) : IsDigits digits := by
  cases h with
  | plain hdigits => exact hdigits
  | groups hfirst _ _ hgroups =>
    refine ⟨by simp [hfirst.1], ?_⟩
    intro c hc
    rcases List.mem_append.mp hc with hc | hc
    · exact hfirst.2 c hc
    · obtain ⟨g, hg, hc⟩ := List.mem_flatten.mp hc
      exact (hgroups g hg).1.2 c hc

/-- A text without a point in front of the cents is taken up to the point. -/
theorem span_pointed {s : List Char} (h : ∀ c ∈ s, c ≠ '.') (cents : List Char) :
    (pointed s cents).takeWhile (· ≠ '.') = s ∧
      (pointed s cents).dropWhile (· ≠ '.') = if cents.isEmpty then [] else '.' :: cents := by
  have hall : ∀ c ∈ s, decide (c ≠ '.') = true := fun c hc => decide_eq_true (h c hc)
  have hstops : Stops (fun c => decide (c ≠ '.'))
      (if cents.isEmpty then [] else '.' :: cents) := by
    split
    · exact stops_nil _
    · exact stops_cons cents (by decide)
  exact ⟨takeWhile_append_stops hall hstops, dropWhile_append_stops hall hstops⟩

/-- Dollars that are read are a whole amount with cents behind the first point or without. -/
theorem dollars_of_dollars? {negative : Bool} {s : List Char} {d : Decimal}
    (h : dollars? negative s = some d) :
    ∃ whole cents, Dollars ('$' :: s) whole cents ∧ d = .spelled negative whole cents := by
  have hjoined : s.takeWhile (· ≠ '.') ++ s.dropWhile (· ≠ '.') = s :=
    List.takeWhile_append_dropWhile
  have hstops := stops_dropWhile (fun c => decide (c ≠ '.')) s
  obtain ⟨whole, hwhole, h⟩ := Option.bind_eq_some_iff.mp h
  have hgrouped : Grouped (s.takeWhile (· ≠ '.')) whole := grouped_of_wholeAmount? hwhole
  split at h
  · rename_i hnone
    rw [hnone, List.append_nil] at hjoined
    have hdollars : Dollars ('$' :: pointed (s.takeWhile (· ≠ '.')) []) whole [] :=
      .dollars hgrouped (List.forall_mem_nil _)
    rw [pointed_nil, hjoined] at hdollars
    obtain rfl := Option.some.inj h
    exact ⟨whole, [], hdollars, by simp [Decimal.spelled]⟩
  · rename_i point cents hcents
    rw [hcents] at hjoined hstops
    -- What the run of other characters stops at is the first point.
    obtain rfl : point = '.' := by simpa using hstops point rfl
    split at h
    · cases h
    · rename_i hdigits
      obtain ⟨hne, hall⟩ := isDigits_iff.mp (Bool.eq_false_iff.mpr hdigits)
      have hdollars : Dollars ('$' :: pointed (s.takeWhile (· ≠ '.')) cents) whole cents :=
        .dollars hgrouped hall
      rw [pointed_of_ne_nil _ hne, hjoined] at hdollars
      obtain rfl := Option.some.inj h
      exact ⟨whole, cents, hdollars, rfl⟩

/-- Dollars are read as the decimal of their digits. -/
theorem dollars?_of_dollars {negative : Bool} {s whole cents : List Char}
    (h : Dollars ('$' :: s) whole cents) :
    dollars? negative s = some (.spelled negative whole cents) := by
  cases h with
  | @dollars digits _ _ hgrouped hcents =>
    have hpoint : ∀ c ∈ digits, c ≠ '.' := by
      intro c hc
      rcases hgrouped.digit_or_comma c hc with hdigit | rfl
      · rintro rfl
        cases hdigit
      · decide
    obtain ⟨htake, hdrop⟩ := span_pointed hpoint cents
    unfold dollars?
    rw [htake, hdrop, wholeAmount?_of_grouped hgrouped]
    cases cents with
    | nil => simp [Decimal.spelled]
    | cons c cents =>
      have hall : (c :: cents).all Char.isDigit = true := List.all_eq_true.mpr hcents
      simp [hall, Decimal.spelled]

theorem dollars?_eq_some_iff {negative : Bool} {s : List Char} {d : Decimal} :
    dollars? negative s = some d ↔
      ∃ whole cents, Dollars ('$' :: s) whole cents ∧ d = .spelled negative whole cents := by
  constructor
  · exact dollars_of_dollars?
  · rintro ⟨whole, cents, h, rfl⟩
    exact dollars?_of_dollars h

theorem Dollars.eq_cons {s whole cents : List Char} (h : Dollars s whole cents) :
    ∃ rest, s = '$' :: rest := by
  cases h with
  | dollars _ _ => exact ⟨_, rfl⟩

/-- There is no white space in dollars. -/
theorem Dollars.not_blank {s whole cents : List Char} (h : Dollars s whole cents) :
    ∀ c ∈ s, isBlank c = false := by
  cases h with
  | dollars hgrouped hcents =>
    intro c hc
    rcases List.mem_cons.mp hc with rfl | hc
    · rfl
    · rcases List.mem_append.mp hc with hc | hc
      · rcases hgrouped.digit_or_comma c hc with hdigit | rfl
        · exact isBlank_of_isDigit hdigit
        · rfl
      · split at hc
        · cases hc
        · rcases List.mem_cons.mp hc with rfl | hc
          · rfl
          · exact isBlank_of_isDigit (hcents c hc)

/-! ## Signs -/

/-- Behind a sign that is there already only dollars are read, and else they may have one. -/
theorem signedDollars?_eq_some_iff {negative : Bool} {s : List Char} {d : Decimal} :
    signedDollars? negative s = some d ↔
      (∃ whole cents, Dollars s whole cents ∧ d = .spelled negative whole cents) ∨
        negative = false ∧ ∃ rest, s = '-' :: rest ∧
          ∃ whole cents, Dollars rest whole cents ∧ d = .spelled true whole cents := by
  unfold signedDollars?
  split
  · rename_i rest
    have hbare : ¬ ∃ whole cents, Dollars ('-' :: '$' :: rest) whole cents ∧
        d = .spelled negative whole cents := by
      rintro ⟨whole, cents, h, -⟩
      obtain ⟨other, hother⟩ := h.eq_cons
      cases hother
    rw [or_iff_right hbare]
    cases negative with
    | true => simp
    | false =>
      rw [if_neg Bool.false_ne_true, dollars?_eq_some_iff]
      constructor
      · exact fun h => ⟨rfl, _, rfl, h⟩
      · rintro ⟨-, other, hother, h⟩
        rwa [(List.cons.inj hother).2]
  · rename_i rest
    rw [dollars?_eq_some_iff, or_iff_left]
    rintro ⟨-, other, hother, -⟩
    cases hother
  · rename_i hminus hbare
    -- Dollars start with their sign, so neither they nor a minus sign and dollars are left.
    refine iff_of_false nofun ?_
    rintro (⟨whole, cents, h, -⟩ | ⟨-, rest, rfl, whole, cents, h, -⟩)
    · obtain ⟨other, rfl⟩ := h.eq_cons
      exact hbare other rfl
    · obtain ⟨other, rfl⟩ := h.eq_cons
      exact hminus other rfl

theorem inParentheses?_eq_some_iff {s inner : List Char} :
    inParentheses? s = some inner ↔ s = '(' :: (inner ++ [')']) := by
  unfold inParentheses?
  split
  · rename_i rest
    constructor
    · intro h
      split at h
      · rename_i hlast
        obtain ⟨front, rfl⟩ := List.getLast?_eq_some_iff.mp hlast
        rw [List.dropLast_concat] at h
        rw [Option.some.inj h]
      · cases h
    · intro h
      obtain rfl := (List.cons.inj h).2
      rw [List.getLast?_concat, if_pos rfl, List.dropLast_concat]
  · rename_i hopen
    refine iff_of_false nofun ?_
    rintro rfl
    exact hopen _ rfl

/-! ## Amounts that are read -/

/-- Dollars stand between white space as they are. -/
theorem Dollars.trim {inner s whole cents : List Char} (h : Dollars s whole cents)
    (hspaced : Spaced inner s) : trim inner = s := by
  have hblank := h.not_blank
  obtain ⟨rest, rfl⟩ := h.eq_cons
  refine hspaced.trim (List.cons_ne_nil _ _) (stops_cons rest rfl) ?_
  intro c hc
  exact hblank c (List.mem_reverse.mp (List.mem_of_mem_head? hc))

/-- An amount stands between white space as it is. -/
theorem Amount.trim {text s whole cents : List Char} {negative : Bool}
    (h : Amount s negative whole cents) (hspaced : Spaced text s) : trim text = s := by
  cases h with
  | bare hdollars => exact hdollars.trim hspaced
  | minus hdollars =>
    have hblank := hdollars.not_blank
    obtain ⟨rest, rfl⟩ := hdollars.eq_cons
    refine hspaced.trim (List.cons_ne_nil _ _) (stops_cons _ rfl) ?_
    intro c hc
    rcases List.mem_cons.mp (List.mem_reverse.mp (List.mem_of_mem_head? hc)) with rfl | hc
    · rfl
    · exact hblank c hc
  | parentheses _ _ =>
    refine hspaced.trim (List.cons_ne_nil _ _) (stops_cons _ rfl) ?_
    rw [List.reverse_cons, List.reverse_append]
    exact stops_cons _ rfl

/-- The amounts that are read are those of the grammar. -/
theorem money?_eq_some_iff {text : List Char} {d : Decimal} :
    money? text = some d ↔
      ∃ negative whole cents, Money text negative whole cents ∧
        d = .spelled negative whole cents := by
  have hspaced := spaced_trim text
  unfold money?
  dsimp only
  constructor
  · intro h
    split at h
    · rename_i inner hinner
      rw [inParentheses?_eq_some_iff.mp hinner] at hspaced
      rcases signedDollars?_eq_some_iff.mp h with ⟨whole, cents, hdollars, rfl⟩ | ⟨hfalse, -⟩
      · exact ⟨true, whole, cents, .spaced hspaced (.parentheses (spaced_trim inner) hdollars), rfl⟩
      · cases hfalse
    · rcases signedDollars?_eq_some_iff.mp h with
        ⟨whole, cents, hdollars, rfl⟩ | ⟨-, rest, hminus, whole, cents, hdollars, rfl⟩
      · exact ⟨false, whole, cents, .spaced hspaced (.bare hdollars), rfl⟩
      · rw [hminus] at hspaced
        exact ⟨true, whole, cents, .spaced hspaced (.minus hdollars), rfl⟩
  · rintro ⟨negative, whole, cents, ⟨hspaced, hamount⟩, rfl⟩
    rw [hamount.trim hspaced]
    cases hamount with
    | bare hdollars =>
      obtain ⟨rest, rfl⟩ := hdollars.eq_cons
      exact signedDollars?_eq_some_iff.mpr (.inl ⟨_, _, hdollars, rfl⟩)
    | minus hdollars =>
      exact signedDollars?_eq_some_iff.mpr (.inr ⟨rfl, _, rfl, _, _, hdollars, rfl⟩)
    | parentheses hinner hdollars =>
      rw [inParentheses?_eq_some_iff.mpr rfl]
      dsimp only
      rw [hdollars.trim hinner]
      exact signedDollars?_eq_some_iff.mpr (.inl ⟨_, _, hdollars, rfl⟩)

/-! ## Cells -/

/-- White space starts no literal. -/
theorem startsLiteral_of_isBlank {c : Char} (h : isBlank c = true) : startsLiteral c = false := by
  have hrange : c.toNat ≤ 32 ∨ 128 ≤ c.toNat := by
    simp only [isBlank, Bool.or_eq_true, Bool.and_eq_true, decide_eq_true_eq, beq_iff_eq] at h
    omega
  have hne : ∀ d : Char, 32 < d.toNat → d.toNat < 128 → c ≠ d := by
    rintro d hlow hhigh rfl
    omega
  have hdigit : ¬ c.isDigit = true := by
    intro hdigit
    have hbetween : 48 ≤ c.toNat ∧ c.toNat ≤ 57 := Char.isDigit_iff_toNat.mp hdigit
    omega
  have hupper : ¬ c.isUpper = true := by
    have hvalue : c.val.toNat = c.toNat := rfl
    simp only [Char.isUpper, decide_eq_true_eq, ge_iff_le, UInt32.le_iff_toNat_le, Char.reduceVal,
      UInt32.reduceToNat]
    omega
  simp [startsLiteral, hdigit, Char.toLower_eq_of_not_isUpper hupper, hne]

/-- An amount is no float literal: it starts with a character that no literal has there, or with
one behind its minus sign. -/
theorem Money.readLiteral_eq_none {text whole cents : List Char} {negative : Bool}
    (h : Money text negative whole cents) : readLiteral text = none := by
  obtain ⟨⟨hbefore, -⟩, hamount⟩ := h
  rename_i before after
  cases before with
  | cons c before =>
    have hblank : startsLiteral c = false :=
      startsLiteral_of_isBlank (hbefore c List.mem_cons_self)
    exact @Number.readLiteral_eq_none false c _ hblank
  | nil =>
    cases hamount with
    | bare hdollars =>
      obtain ⟨rest, rfl⟩ := hdollars.eq_cons
      exact @Number.readLiteral_eq_none false '$' _ rfl
    | minus hdollars =>
      obtain ⟨rest, rfl⟩ := hdollars.eq_cons
      exact @Number.readLiteral_eq_none true '$' _ rfl
    | parentheses _ _ => exact @Number.readLiteral_eq_none false '(' _ rfl

/-- The digits of an amount are a numeral. -/
theorem Money.isDigits {text whole cents : List Char} {negative : Bool}
    (h : Money text negative whole cents) : IsDigits whole ∧ ∀ c ∈ cents, c.isDigit = true := by
  have hdollars : ∀ {s : List Char}, Dollars s whole cents →
      IsDigits whole ∧ ∀ c ∈ cents, c.isDigit = true := by
    rintro s ⟨hgrouped, hcents⟩
    exact ⟨hgrouped.isDigits, hcents⟩
  obtain ⟨-, hamount⟩ := h
  cases hamount with
  | bare h | minus h | parentheses _ h => exact hdollars h

/-- An amount is kept as the double of its digits. -/
theorem numberOrText_of_money {text : String} {whole cents : List Char} {negative : Bool}
    (h : Money text.toList negative whole cents) :
    numberOrText text = .float (.ofDecimal (.spelled negative whole cents)) := by
  have hliteral : Double.ofText? text.toList = none := Double.ofText?_eq_none h.readLiteral_eq_none
  have hmoney : money? text.toList = some (.spelled negative whole cents) :=
    money?_eq_some_iff.mpr ⟨negative, whole, cents, h, rfl⟩
  unfold numberOrText
  rw [hliteral, hmoney]

/-- A text that is neither a literal nor an amount is kept as it is. -/
theorem numberOrText_of_neither {text : String} (hliteral : readLiteral text.toList = none)
    (hno : ¬ ∃ negative whole cents, Money text.toList negative whole cents) :
    numberOrText text = .string text := by
  have hmoney : money? text.toList = none := by
    rw [Option.eq_none_iff_forall_ne_some]
    intro d hd
    obtain ⟨negative, whole, cents, hamount, -⟩ := money?_eq_some_iff.mp hd
    exact hno ⟨negative, whole, cents, hamount⟩
  unfold numberOrText
  rw [Double.ofText?_eq_none hliteral, hmoney]

/-- A cell that is no float literal is a number exactly if its text is an amount. The number is the
one that the digits alone are read as, with the opposite sign for an amount that is negative. Any
other text is kept as it is. -/
theorem numberOrText_money {text : String} (h : readLiteral text.toList = none) :
    (∀ negative whole cents, Money text.toList negative whole cents →
      ∃ x, Double.ofText? (pointed whole cents) = some x ∧
        numberOrText text = .float (if negative then x.negate else x)) ∧
    ((∃ x, numberOrText text = .float x) ↔
      ∃ negative whole cents, Money text.toList negative whole cents) ∧
    ((¬ ∃ negative whole cents, Money text.toList negative whole cents) →
      numberOrText text = .string text) := by
  refine ⟨?_, ⟨?_, ?_⟩, numberOrText_of_neither h⟩
  · intro negative whole cents hmoney
    obtain ⟨hwhole, hcents⟩ := hmoney.isDigits
    refine ⟨.ofDecimal (.spelled false whole cents),
      @Double.ofText?_numeral false _ _ hwhole.1 hwhole.2 hcents, ?_⟩
    rw [numberOrText_of_money hmoney]
    cases negative with
    | true => exact congrArg Value.float (Double.negate_ofDecimal _ _).symm
    | false => rfl
  · rintro ⟨x, hx⟩
    by_contra hno
    rw [numberOrText_of_neither h hno] at hx
    cases hx
  · rintro ⟨negative, whole, cents, hmoney⟩
    exact ⟨_, numberOrText_of_money hmoney⟩

/-- An amount between parentheses is a negative number, and one with a group of two digits is a
text. -/
theorem numberOrText_money_parentheses :
    readLiteral "( $1,234.50 ) ".toList = none ∧ readLiteral "($1,23.00)".toList = none ∧
      (∃ x, Double.ofText? "1234.50".toList = some x ∧
        numberOrText "( $1,234.50 ) " = .float x.negate) ∧
      numberOrText "($1,23.00)" = .string "($1,23.00)" := by
  have hamount : readLiteral "( $1,234.50 ) ".toList = none := by decide
  have htext : readLiteral "($1,23.00)".toList = none := by decide
  refine ⟨hamount, htext, ?_, ?_⟩
  · have hspace : ∀ c ∈ [' '], isBlank c = true := List.forall_mem_singleton.mpr rfl
    have hgrouped : Grouped ['1', ',', '2', '3', '4'] ['1', '2', '3', '4'] :=
      grouped_of_wholeAmount? (by decide)
    have hcents : IsDigits ['5', '0'] := isDigits_iff.mp rfl
    have hdollars : Dollars "$1,234.50".toList ['1', '2', '3', '4'] ['5', '0'] :=
      .dollars hgrouped hcents.2
    have hinner : Spaced " $1,234.50 ".toList "$1,234.50".toList :=
      @Spaced.around [' '] "$1,234.50".toList [' '] hspace hspace
    have houter : Spaced "( $1,234.50 ) ".toList "( $1,234.50 )".toList :=
      @Spaced.around [] "( $1,234.50 )".toList [' '] (List.forall_mem_nil _) hspace
    have hmoney : Money "( $1,234.50 ) ".toList true ['1', '2', '3', '4'] ['5', '0'] :=
      .spaced houter (.parentheses hinner hdollars)
    exact (numberOrText_money hamount).1 true _ _ hmoney
  · refine (numberOrText_money htext).2.2 ?_
    rintro ⟨negative, whole, cents, hmoney⟩
    have hread := money?_eq_some_iff.mpr ⟨negative, whole, cents, hmoney, rfl⟩
    have hnone : money? "($1,23.00)".toList = none := by decide
    rw [hnone] at hread
    cases hread

end Pushdown.Postgres
