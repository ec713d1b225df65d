import Mathlib
import Pushdown.Proofs.Filter.RoundTrip
import Pushdown.Proofs.Filter.Spelling

/-!
# Where an operator ends

The spellings that filters are searched for are those that an operator has when it stands alone
(`Operator.ofSpelling?_eq_some_iff`). A spelling is the longest that a text begins with if nothing
stands behind it (`longest_alone`) or white space does (`longest_of_blank`), even where other
spellings start with it. Main statement: a text reads as an operator just if the operator is split
off it with nothing behind, and with a space and a value behind the text the operator is split off
with that value (`read_iff_splitOperator`).
-/

namespace Pushdown.Filter

open Text

/-! ## White space around spellings -/

theorem isBlank_of_isAlpha {c : Char} (h : c.isAlpha = true) : isBlank c = false :=
  isBlank_of_isNameChar (by simp [isNameChar, isWordChar, Char.isAlphanum, h])

/-- Capitals and small letters are no white space, and everything else is left alone. -/
theorem isBlank_toUpper (c : Char) : isBlank c.toUpper = isBlank c := by
  by_cases hlower : c.isLower = true
  · have hsmall : c.isAlpha = true := by simp [Char.isAlpha, hlower]
    rw [isBlank_of_isAlpha hsmall, isBlank_of_isAlpha (by simpa using hsmall)]
  · rw [Char.toUpper_eq_of_not_isLower hlower]

theorem not_blank_ends : ∀ p ∈ spellings, isBlank (p.1.toList.headD ' ') = false ∧
    isBlank (p.1.toList.reverse.headD ' ') = false := by
  decide +kernel

/-- No spelling goes on with white space where another one ends. -/
theorem not_blank_behind : ∀ p ∈ spellings, ∀ q ∈ spellings, p.1.toList <+: q.1.toList →
    isBlank ((q.1.toList.drop p.1.toList.length).headD '=') = false := by
  decide +kernel

theorem stops_isBlank_of_headD {s : List Char} (h : isBlank (s.headD ' ') = false) :
    Stops isBlank s := by
  cases s with
  | nil => exact stops_nil _
  | cons c s => exact stops_cons s h

/-- A text is tight if it is so in capitals. -/
theorem tight_of_upper {s : List Char} (h : Tight (upper s)) : Tight s := by
  refine ⟨?_, ?_, ?_⟩
  · rintro rfl
    exact h.ne_nil rfl
  · intro c hc
    rw [← isBlank_toUpper]
    exact h.first _ (by simp [upper, hc])
  · intro c hc
    rw [← isBlank_toUpper]
    refine h.last _ ?_
    rw [upper, ← List.map_reverse, List.head?_map, hc]
    rfl

/-- An operator has no white space at its ends, however it is typed. -/
theorem tight_typed {spelling : String} {op : Operator} {typed : List Char}
    (hlisted : (spelling, op) ∈ spellings) (htyped : upper typed = spelling.toList) :
    Tight typed := by
  obtain ⟨hfirst, hlast⟩ := not_blank_ends _ hlisted
  have hne : spelling.toList ≠ [] := by
    intro hnil
    dsimp only at hfirst
    rw [hnil] at hfirst
    cases hfirst
  apply tight_of_upper
  rw [htyped]
  exact ⟨hne, stops_isBlank_of_headD hfirst, stops_isBlank_of_headD hlast⟩

/-! ## Spellings that are the longest -/

section Ends

variable {spelling : String} {op : Operator} {typed rest : List Char} {c : Char}

/-- A spelling ends where white space starts, whether it is a word or not. -/
theorem begins_of_blank (htyped : upper typed = spelling.toList) (hblank : isBlank c = true) :
    Begins spelling (typed ++ c :: rest) (c :: rest) := by
  refine ⟨⟨typed, rfl, htyped⟩, fun _ => stops_cons rest ?_⟩
  cases hword : isWordChar c with
  | false => rfl
  | true =>
    have hname : isNameChar c = true := by simp [isNameChar, hword]
    rw [isBlank_of_isNameChar hname] at hblank
    cases hblank

/-- No spelling goes on behind white space at which another one ends. -/
theorem length_le_of_blank (hlisted : (spelling, op) ∈ spellings)
    (htyped : upper typed = spelling.toList) (hblank : isBlank c = true)
    {other : String × Operator} (hother : other ∈ spellings)
    (hlonger : spelling.toList <+: other.1.toList) {behind : List Char}
    (hspelled : Spelled other.1 (typed ++ c :: rest) behind) : other.1.length ≤ spelling.length := by
  -- A longer one would go on with the white space behind the one that ends there.
  by_contra hlt
  obtain ⟨head, hs, hhead⟩ := hspelled
  have hcount : typed.length < head.length := by
    rw [length_typed htyped, length_typed hhead]
    omega
  rcases List.append_eq_append_iff.mp hs with ⟨more, rfl, hrest⟩ | ⟨more, rfl, _⟩
  · cases more with
    | nil => simp at hcount
    | cons d more =>
      obtain rfl : c = d := (List.cons.inj hrest).1
      have hnot := not_blank_behind _ hlisted _ hother hlonger
      rw [← hhead, ← htyped] at hnot
      simp [upper, isBlank_toUpper, hblank] at hnot
  · rw [List.length_append] at hcount
    omega

/-- A spelling with white space behind it is the longest that the text begins with. -/
theorem longest_of_blank (hlisted : (spelling, op) ∈ spellings)
    (htyped : upper typed = spelling.toList) (hblank : isBlank c = true) :
    Longest (typed ++ c :: rest) spelling op (c :: rest) := by
  have hbegins : Begins spelling (typed ++ c :: rest) (c :: rest) := begins_of_blank htyped hblank
  refine ⟨hlisted, hbegins, ?_⟩
  intro other hother behind hbehind
  rcases hbegins.comparable hbehind with hlonger | hshorter
  · exact length_le_of_blank hlisted htyped hblank hother hlonger hbehind.spelled
  · exact length_le_of_prefix hshorter

/-- A spelling that is the whole text is the longest that the text begins with. -/
theorem longest_alone (hlisted : (spelling, op) ∈ spellings)
    (htyped : upper typed = spelling.toList) : Longest typed spelling op [] := by
  refine ⟨hlisted, ⟨⟨typed, (List.append_nil typed).symm, htyped⟩, fun _ => stops_nil _⟩, ?_⟩
  -- What the text begins with is no longer than the text.
  intro other _ behind hbehind
  obtain ⟨head, rfl, hhead⟩ := hbehind.spelled
  rw [← length_typed htyped, ← length_typed hhead, List.length_append]
  omega

/-- An operator is split off at the white space behind it, in whatever spelling it is typed. -/
theorem splitOperator_of_gap (hlisted : (spelling, op) ∈ spellings)
    (htyped : upper typed = spelling.toList) {gap : List Char} (hgap : Gap gap) :
    splitOperator (typed ++ (gap ++ rest)) = .ok (op, trim (gap ++ rest)) := by
  cases hcases : gap with
  | nil => exact absurd hcases hgap.ne_nil
  | cons c behind =>
    have hblank : isBlank c = true := hgap.blank c (by simp [hcases])
    exact splitOperator_eq_ok_iff.mpr
      ⟨spelling, _, longest_of_blank hlisted htyped hblank, rfl⟩

/-- From a text that ends in no white space an operator is split off with nothing behind just if the
text is one of its spellings. -/
theorem splitOperator_alone_iff (hlast : Stops isBlank typed.reverse) :
    splitOperator typed = .ok (op, []) ↔
      ∃ spelling, (spelling, op) ∈ spellings ∧ upper typed = spelling.toList := by
  rw [splitOperator_eq_ok_iff]
  constructor
  · rintro ⟨spelling, rest, hlongest, hrest⟩
    obtain ⟨head, rfl, hhead⟩ := hlongest.begins.spelled
    obtain rfl : rest = [] := eq_nil_of_trim hlast hrest.symm
    rw [List.append_nil]
    exact ⟨spelling, hlongest.listed, hhead⟩
  · rintro ⟨spelling, hlisted, htyped⟩
    exact ⟨spelling, [], longest_alone hlisted htyped, rfl⟩

end Ends

end Pushdown.Filter

namespace Pushdown.Operator

open Text
open Pushdown.Filter

/-! ## The two readers of operators -/

theorem ofSpelling?_of_mem : ∀ p ∈ spellings, ofSpelling? p.1 = some p.2 := by
  decide +kernel

/-- The spellings in capitals that operators have are those that filters are searched for. -/
theorem ofSpelling?_eq_some_iff {spelling : String} {op : Operator} :
    ofSpelling? spelling = some op ↔ (spelling, op) ∈ spellings := by
  constructor
  · intro h
    unfold ofSpelling? at h
    split at h
    all_goals cases h
    all_goals decide
  · exact ofSpelling?_of_mem (spelling, op)

/-- A text reads as an operator just if, without the white space around it, it is one of the
spellings in some case of letters. -/
theorem read_eq_ok_iff {t : String} {op : Operator} :
    read t = .ok op ↔
      ∃ spelling, (spelling, op) ∈ spellings ∧ upper (trim t.toList) = spelling.toList := by
  unfold read
  constructor
  · intro h
    dsimp only at h
    split at h
    · rename_i found hfound
      obtain rfl := Except.ok.inj h
      exact ⟨_, ofSpelling?_eq_some_iff.mp hfound, String.toList_ofList.symm⟩
    · cases h
  · rintro ⟨spelling, hlisted, htyped⟩
    have hfound : ofSpelling? (String.ofList (upper (trim t.toList))) = some op := by
      rw [htyped, String.ofList_toList]
      exact ofSpelling?_eq_some_iff.mpr hlisted
    dsimp only
    rw [hfound]

/-- A text reads as an operator just if that operator is split off it with nothing behind. With a
space and a value behind such a text the same operator is split off and just the value is left, even
if a longer operator begins with the two of them. -/
theorem read_iff_splitOperator (t : String) (op : Operator) :
    (read t = .ok op ↔ splitOperator (trim t.toList) = .ok (op, [])) ∧
      (read t = .ok op → ∀ value,
        splitOperator (trim t.toList ++ ' ' :: value) = .ok (op, trim value)) := by
  constructor
  · rw [read_eq_ok_iff, splitOperator_alone_iff (stops_reverse_trim t.toList)]
  · intro hread value
    obtain ⟨spelling, hlisted, htyped⟩ := read_eq_ok_iff.mp hread
    have hsplit : splitOperator (trim t.toList ++ ([' '] ++ value)) =
        .ok (op, trim ([' '] ++ value)) :=
      splitOperator_of_gap hlisted htyped gap_space
    rw [List.singleton_append, trim_cons_of_blank value rfl] at hsplit
    exact hsplit

/-- A sign with a value behind it that would make it another sign, and words in small letters. -/
theorem read_iff_splitOperator_shadowed :
    read " <\n" = .ok .less ∧
      splitOperator ['<', ' ', '=', ' ', '1', ' '] = .ok (.less, ['=', ' ', '1']) ∧
      read "not like" = .ok .notLike ∧
      splitOperator "not like".toList = .ok (.notLike, []) := by
  obtain ⟨_, hless⟩ := read_iff_splitOperator " <\n" .less
  obtain ⟨hlike, _⟩ := read_iff_splitOperator "not like" .notLike
  exact ⟨rfl, hless rfl ['=', ' ', '1', ' '], rfl, hlike.mp rfl⟩

end Pushdown.Operator
