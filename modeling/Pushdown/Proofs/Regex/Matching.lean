import Mathlib
import Pushdown.Regex.Match

/-!
# What an expression matches

The pieces of an expression match at a place of a text by one rule for each kind of piece
(`Matches`), and the expression is found in the text if they match at some place of it (`Found`).
Searching instead runs over the text from its end and keeps one answer for each end of the pieces.
The invariant (`EndsMatch`) is that these answers are right for the part of the text that has been
seen; one character keeps it (`stepEnds_endsMatch`), so it holds at every place of a text
(`places_endsMatch`). Main statement: the search finds an expression just where it is
(`isMatch_iff_found`).
-/

namespace Pushdown.Regex

/-! ## Rules -/

/-- A character whose code point is between the ends of a span. -/
def Span.Covers (s : Span) (c : Char) : Prop :=
  s.low.toNat ≤ c.toNat ∧ c.toNat ≤ s.high.toNat

/-- A character of a set: one of its spans covers it, or none of them if the set is negated. -/
def CharSet.Has : CharSet → Char → Prop
  | ⟨false, spans⟩, c => ∃ s ∈ spans, s.Covers c
  | ⟨true, spans⟩, c => ∀ s ∈ spans, ¬s.Covers c

/-- Pieces match at a place of a text, of which it is said whether it is the first one and what
stands behind it. Whatever is left behind the match does not matter. -/
inductive Matches : Bool → List Piece → List Char → Prop
  | nil (first : Bool) (s : List Char) : Matches first [] s
  | start {rest : List Piece} {s : List Char} :
      Matches true rest s → Matches true (.start :: rest) s
  | finish {first : Bool} {rest : List Piece} :
      Matches first rest [] → Matches first (.finish :: rest) []
  | once {first : Bool} {set : CharSet} {rest : List Piece} {c : Char} {s : List Char} :
      set.Has c → Matches false rest s → Matches first (.once set :: rest) (c :: s)
  | missing {first : Bool} {set : CharSet} {rest : List Piece} {s : List Char} :
      Matches first rest s → Matches first (.optional set :: rest) s
  | given {first : Bool} {set : CharSet} {rest : List Piece} {c : Char} {s : List Char} :
      set.Has c → Matches false rest s → Matches first (.optional set :: rest) (c :: s)
  | stop {first : Bool} {set : CharSet} {rest : List Piece} {s : List Char} :
      Matches first rest s → Matches first (.many set :: rest) s
  | more {first : Bool} {set : CharSet} {rest : List Piece} {c : Char} {s : List Char} :
      set.Has c → Matches false (.many set :: rest) s → Matches first (.many set :: rest) (c :: s)

/-- An expression is found in a text if its pieces match at one place of the text. -/
def Found (r : Regex) (s : List Char) : Prop :=
  ∃ before after, s = before ++ after ∧ Matches before.isEmpty r.pieces after

/-! ## One piece -/

theorem Span.holds_iff {s : Span} {c : Char} : s.holds c = true ↔ s.Covers c := by
  simp only [Span.holds, Span.Covers, Bool.and_eq_true, decide_eq_true_eq]
  rfl

theorem CharSet.holds_iff {set : CharSet} {c : Char} : set.holds c = true ↔ set.Has c := by
  obtain ⟨negated, spans⟩ := set
  cases negated with
  | false => simp [CharSet.holds, CharSet.Has, Span.holds_iff]
  | true => simp [CharSet.holds, CharSet.Has, ← Span.holds_iff]

variable {first : Bool} {piece : Piece} {rest : List Piece} {c : Char} {s : List Char}

/-- At the end of a text every piece has to take nothing. -/
theorem matches_empty_iff :
    Matches first (piece :: rest) [] ↔ piece.skips first true = true ∧ Matches first rest [] := by
  constructor
  · intro h
    cases h with
    | start h => exact ⟨rfl, h⟩
    | finish h => exact ⟨rfl, h⟩
    | missing h => exact ⟨rfl, h⟩
    | stop h => exact ⟨rfl, h⟩
  · rintro ⟨hskips, h⟩
    cases piece with
    | start =>
      obtain rfl : first = true := hskips
      exact .start h
    | finish => exact .finish h
    | once set => cases hskips
    | optional set => exact .missing h
    | many set => exact .stop h

/-- In front of a character a piece takes it, and may stay for more, or it takes nothing. -/
theorem matches_cons_iff :
    Matches first (piece :: rest) (c :: s) ↔
      (piece.takes c = true ∧ Matches false (if piece.stays then piece :: rest else rest) s) ∨
        (piece.skips first false = true ∧ Matches first rest (c :: s)) := by
  constructor
  · intro h
    cases h with
    | start h => exact .inr ⟨rfl, h⟩
    | once hc h => exact .inl ⟨CharSet.holds_iff.mpr hc, h⟩
    | missing h => exact .inr ⟨rfl, h⟩
    | given hc h => exact .inl ⟨CharSet.holds_iff.mpr hc, h⟩
    | stop h => exact .inr ⟨rfl, h⟩
    | more hc h => exact .inl ⟨CharSet.holds_iff.mpr hc, h⟩
  · rintro (⟨htakes, h⟩ | ⟨hskips, h⟩)
    · cases piece with
      | start => cases htakes
      | finish => cases htakes
      | once set => exact .once (CharSet.holds_iff.mp htakes) h
      | optional set => exact .given (CharSet.holds_iff.mp htakes) h
      | many set => exact .more (CharSet.holds_iff.mp htakes) h
    · cases piece with
      | start =>
        obtain rfl : first = true := hskips
        exact .start h
      | finish => cases hskips
      | once set => cases hskips
      | optional set => exact .missing h
      | many set => exact .stop h

/-! ## The answers for all ends -/

/-- The answers say of each end of the pieces, longest first, whether it matches. -/
def EndsMatch (first : Bool) (pieces : List Piece) (s : List Char) (answers : List Bool) : Prop :=
  List.Forall₂ (fun suffix answer => answer = true ↔ Matches first suffix s) pieces.tails answers

/-- The first answer is that for all pieces. -/
theorem EndsMatch.headD {pieces : List Piece} {answers : List Bool}
    (h : EndsMatch first pieces s answers) :
    answers.headD false = true ↔ Matches first pieces s := by
  cases pieces with
  | nil =>
    obtain ⟨answer, _, hanswer, _, rfl⟩ := List.forall₂_cons_left_iff.mp h
    exact hanswer
  | cons piece rest =>
    obtain ⟨answer, _, hanswer, _, rfl⟩ := List.forall₂_cons_left_iff.mp h
    exact hanswer

theorem emptyEnds_endsMatch (first : Bool) (pieces : List Piece) :
    EndsMatch first pieces [] (emptyEnds first pieces) := by
  induction pieces with
  | nil => exact .cons (iff_of_true rfl (.nil first [])) .nil
  | cons piece rest ih =>
    refine .cons ?_ ih
    rw [matches_empty_iff, Bool.and_eq_true, ih.headD]

/-- One more character in front of a text keeps the answers right. -/
theorem stepEnds_endsMatch (first : Bool) (c : Char) {pieces : List Piece} {behind : List Bool}
    (h : EndsMatch false pieces s behind) :
    EndsMatch first pieces (c :: s) (stepEnds first c pieces behind) := by
  induction pieces generalizing behind with
  | nil => exact .cons (iff_of_true rfl (.nil first (c :: s))) .nil
  | cons piece rest ih =>
    have hwhole := h.headD
    obtain ⟨answer, answers, _, hrest, rfl⟩ := List.forall₂_cons_left_iff.mp h
    have hends : EndsMatch false rest s answers := hrest
    refine .cons ?_ (ih hends)
    -- A piece that stays goes on from the same end of the pieces, any other from the next one.
    rw [matches_cons_iff, ← (ih hends).headD]
    by_cases hstays : piece.stays = true
    · simp [hstays, ← hwhole]
    · simp [hstays, ← hends.headD]

/-- The answers at the first place of a text are right. -/
theorem places_endsMatch (pieces : List Piece) (first : Bool) (s : List Char) :
    EndsMatch first pieces s ((places pieces first s).headD []) := by
  induction s generalizing first with
  | nil => exact emptyEnds_endsMatch first pieces
  | cons c s ih => exact stepEnds_endsMatch first c (ih false)

/-! ## Searching -/

/-- The places of a text are the first one and those behind its first character. -/
theorem any_places_iff (pieces : List Piece) (first : Bool) (s : List Char) :
    (places pieces first s).any (·.headD false) = true ↔
      ∃ before after, s = before ++ after ∧ Matches (first && before.isEmpty) pieces after := by
  induction s generalizing first with
  | nil =>
    have hplace : (places pieces first []).any (·.headD false) =
        ((places pieces first []).headD []).headD false := by
      simp [places]
    rw [hplace, (places_endsMatch pieces first []).headD]
    constructor
    · intro h
      exact ⟨[], [], rfl, by simpa using h⟩
    · rintro ⟨before, after, hs, h⟩
      obtain ⟨rfl, rfl⟩ := List.append_eq_nil_iff.mp hs.symm
      simpa using h
  | cons c s ih =>
    have hplace : (places pieces first (c :: s)).any (·.headD false) =
        (((places pieces first (c :: s)).headD []).headD false ||
          (places pieces false s).any (·.headD false)) := rfl
    rw [hplace, Bool.or_eq_true, (places_endsMatch pieces first (c :: s)).headD, ih false]
    constructor
    · rintro (h | ⟨before, after, rfl, h⟩)
      · exact ⟨[], c :: s, rfl, by simpa using h⟩
      · exact ⟨c :: before, after, rfl, by simpa using h⟩
    · rintro ⟨before, after, hs, h⟩
      cases before with
      | nil =>
        left
        rw [List.nil_append] at hs
        rw [hs]
        simpa using h
      | cons d before =>
        obtain ⟨rfl, rfl⟩ := List.cons.inj hs
        exact .inr ⟨before, after, rfl, by simpa using h⟩

/-- The search finds an expression just where it is. -/
theorem isMatch_iff_found {r : Regex} {text : String} :
    r.isMatch text = true ↔ r.Found text.toList :=
  any_places_iff r.pieces true text.toList

end Pushdown.Regex
