import Mathlib
import Pushdown.Proofs.Filter.Grammar
import Pushdown.Proofs.Number.Literal
import Pushdown.Proofs.Sql.Condition

/-!
# Literals of numbers

A filter on a column of doubles takes more texts for a number than SQL has numerals: the words for
infinities and for what is no number, and decimals that are rounded to an infinity. Main statement:
the literal of a filter is a numeral, and one token, exactly if its text is a decimal in the range
of doubles. Otherwise it is a bare word, which the database takes for the name of a column
(`read_double`).
-/

namespace Pushdown.Filter

open Number (Decimal Double IsNumeral isNumeral_plain readLiteral)
open Sql (Token)
open Text

/-- The parts of a filter: the name it starts with, the operator behind it and the text of the
value, without white space around it. -/
inductive Parts (filter : String) : List Char → Operator → List Char → Prop
  | parts {name gap text rest : List Char} {spelling : String} {op : Operator} :
      trim filter.toList = name ++ (gap ++ text) →
      (∀ c ∈ name, isNameChar c = true) → Stops isNameChar (gap ++ text) →
      (∀ c ∈ gap, isBlank c = true) → Stops isBlank text → Longest text spelling op rest →
      Parts filter name op (trim rest)

/-- A text that is a decimal in the range of doubles. -/
def InRange (v : List Char) : Prop :=
  ∃ d : Decimal, readLiteral v = some (.decimal d) ∧ d.magnitude < Double.limit

/-- The literals of doubles that are no numerals, and their tokens. -/
inductive BareWord : List Char → List Token → Prop
  | notANumber : BareWord ['N', 'a', 'N'] [.identifier "NaN"]
  | infinity : BareWord ['i', 'n', 'f'] [.identifier "inf"]
  | minusInfinity : BareWord ['-', 'i', 'n', 'f'] [.operator "-", .identifier "inf"]

/-! ## BareWord words -/

/-- Without a digit a text is no numeral. -/
theorem not_isNumeral {s : List Char} (h : s.any Char.isDigit = false) : ¬ IsNumeral s := by
  rintro ⟨negative, whole, fraction, rfl, hne, hwhole, -⟩
  obtain ⟨c, rest, rfl⟩ := List.exists_cons_of_ne_nil hne
  have hmem : c ∈ Number.signed negative (Number.pointed (c :: rest) fraction) := by
    cases negative with
    | true => exact List.mem_cons_of_mem _ List.mem_cons_self
    | false => exact List.mem_cons_self
  have hdigit : c.isDigit = true := hwhole c List.mem_cons_self
  exact Bool.false_ne_true (h.symm.trans (List.any_of_mem hmem hdigit))

theorem BareWord.not_isNumeral {s : List Char} {tokens : List Token} (h : BareWord s tokens) :
    ¬ IsNumeral s := by
  cases h with
  | notANumber | infinity | minusInfinity => exact Filter.not_isNumeral rfl

/-- A word that is not reserved is read as a name, also behind a minus sign. -/
theorem BareWord.tokens? {reserved : List String} {s : List Char} {tokens : List Token}
    (h : BareWord s tokens) (hnan : "NAN" ∉ reserved) (hinf : "INF" ∉ reserved) :
    Sql.tokens? reserved s = some tokens := by
  have hname : ∀ {c : Char} {word : List Char}, Sql.isLetter c = true →
      word.all Sql.isWordPart = true → Sql.isKeyword [] (c :: word) = false →
      String.ofList (upper (c :: word)) ∉ reserved →
      Sql.tokens? reserved (c :: word) = some [.identifier (String.ofList (c :: word))] := by
    intro c word hc hword hkeyword hreserved
    have hplain : Sql.isKeyword reserved (c :: word) = false := by
      simp only [Sql.isKeyword, Bool.or_eq_false_iff] at hkeyword ⊢
      exact ⟨hkeyword.1, by simpa using hreserved⟩
    have hlexes : Sql.LexesTo reserved (c :: word) [Sql.ofWord reserved (c :: word)] :=
      Sql.lexesTo_word hc hword
    rw [hlexes.tokens?, Sql.ofWord, hplain]
    rfl
  have hinfinity : Sql.tokens? reserved ['i', 'n', 'f'] = some [.identifier "inf"] :=
    hname (by decide) (by decide) (by decide) hinf
  cases h with
  | notANumber => exact hname (by decide) (by decide) (by decide) hnan
  | infinity => exact hinfinity
  | minusInfinity =>
    have hminus : Sql.lexeme? reserved ['-', 'i', 'n', 'f'] =
        some (some (.operator "-"), ['i', 'n', 'f']) := rfl
    rw [Sql.tokens?_lexeme hminus, hinfinity]
    rfl

/-! ## Literals of doubles -/

/-- A double that is not finite is a bare word. -/
theorem bareWord_plain {x : Double} (h : x.isFinite = false) :
    ∃ tokens, BareWord x.plain tokens := by
  cases x with
  | notANumber => exact ⟨_, .notANumber⟩
  | infinite negative =>
    cases negative with
    | true => exact ⟨_, .minusInfinity⟩
    | false => exact ⟨_, .infinity⟩
  | finite negative exponent fraction => cases h

section Comparisons

variable {table : VirtualTable} {filter : String} {q : Qualifier} {column : VirtualColumn}
  (hread : read table filter = .ok q) (hcolumn : table.column? q.column = some column)
  (htype : column.hostType = .double) (hbinary : q.operator.isUnary = false)

include hread hcolumn htype hbinary

/-- A filter that compares a column of doubles holds the double that its text is read as. -/
theorem value_of_double :
    ∃ v x, Parts filter q.column.toList q.operator v ∧ Double.read v = .ok x ∧
      q.value = some (.double x) := by
  obtain ⟨htext, hname, hstops, hgap, htight, -, hfound, hlongest, -, hmeant⟩ :=
    read_eq_ok_iff.mp hread
  rename_i name gap text rest found spelling op
  have hspelled : found.name = String.ofList name := by
    simpa using List.find?_some hfound
  have hparts : Parts filter name op (trim rest) :=
    .parts htext hname hstops hgap htight hlongest
  generalize trim rest = v at hparts hmeant
  cases hmeant with
  | alone hunary =>
    rw [show op.isUnary = false from hbinary] at hunary
    cases hunary
  | compared _ _ hlegal =>
    rename_i literal
    -- The column that was looked up is the first of its name, so its type says what is legal.
    have hsame : found = column := by
      rw [← hspelled] at hfound
      exact Option.some.inj (hfound.symm.trans hcolumn)
    rw [hsame, htype] at hlegal
    cases hlegal with
    | double hx =>
      refine ⟨_, _, ?_, hx, rfl⟩
      show Parts filter found.name.toList op v
      rwa [hspelled, String.toList_ofList]

/-- A filter that compares a column of doubles is rendered with a numeral in either style exactly if
the text of its value is a decimal in the range of doubles. Any other text that is read leaves a
bare word, which is a name of a column to the database. -/
theorem read_double :
    ∃ v x, Parts filter q.column.toList q.operator v ∧ Double.read v = .ok x ∧
      q.value = some (.double x) ∧ ∀ style : QuoteStyle,
        (IsNumeral (style.literal (.double x)) ↔ InRange v) ∧
        (InRange v → ∀ reserved, Sql.tokens? reserved (style.literal (.double x)) =
          some [.numeral (String.ofList (style.literal (.double x)))]) ∧
        (¬ InRange v → ∃ tokens, BareWord (style.literal (.double x)) tokens ∧
          ∀ reserved, "NAN" ∉ reserved → "INF" ∉ reserved →
            Sql.tokens? reserved (style.literal (.double x)) = some tokens) := by
  obtain ⟨v, x, hparts, hx, hvalue⟩ := value_of_double hread hcolumn htype hbinary
  have hfinite : x.isFinite = true ↔ InRange v := Double.isFinite_iff_of_read hx
  have hliteral : ∀ style : QuoteStyle, style.literal (.double x) = x.plain := fun _ => rfl
  refine ⟨v, x, hparts, hx, hvalue, fun style => ?_⟩
  rw [hliteral, ← hfinite]
  cases h : x.isFinite with
  | true =>
    refine ⟨iff_of_true (isNumeral_plain h) rfl, ?_, fun hne => absurd rfl hne⟩
    exact fun _ _ => (Sql.lexesTo_numeral (isNumeral_plain h)).tokens?
  | false =>
    obtain ⟨tokens, hbare⟩ := bareWord_plain h
    refine ⟨iff_of_false hbare.not_isNumeral Bool.false_ne_true,
      fun h => absurd h Bool.false_ne_true, fun _ => ?_⟩
    exact ⟨tokens, hbare, fun _ => hbare.tokens?⟩

end Comparisons

/-- A table with a column of doubles. -/
def measures : VirtualTable :=
  VirtualTable.synthesize ⟨"measures", none, [⟨"x", ⟨.float, "double precision"⟩, none⟩]⟩

/-- A decimal above the range of doubles is accepted, and is a name in the condition. -/
theorem read_double_above :
    read measures "x < 1e400" = .ok ⟨"x", .less, some (.double (.infinite false))⟩ ∧
      Sql.tokens? [] (QuoteStyle.escaped.literal (.double (.infinite false))) =
        some [.identifier "inf"] := by
  have hread : read measures "x < 1e400" = .ok ⟨"x", .less, some (.double (.infinite false))⟩ := rfl
  obtain ⟨v, x, -, -, hvalue, hstyles⟩ := read_double hread rfl rfl rfl
  obtain rfl : Double.infinite false = x := Literal.double.inj (Option.some.inj hvalue)
  obtain ⟨hnumeral, -, hbare⟩ := hstyles .escaped
  have hrange : ¬ InRange v := fun h => absurd (hnumeral.mpr h) (not_isNumeral rfl)
  obtain ⟨tokens, hbare, htokens⟩ := hbare hrange
  cases hbare
  exact ⟨hread, htokens [] List.not_mem_nil List.not_mem_nil⟩

/-- What is no number is accepted as a value. The literal is neither a numeral nor the one that no
statement goes through with, but a name. -/
theorem nan_literal :
    ∃ q x, read measures "x = nan" = .ok q ∧ q.value = some (.double x) ∧
      ∀ style : QuoteStyle, ¬ IsNumeral (style.literal (.double x)) ∧
        style.literal (.double x) ≠ style.literal (.list []) ∧
        Sql.tokens? [] (style.literal (.double x)) = some [.identifier "NaN"] := by
  refine ⟨⟨"x", .equal, some (.double .notANumber)⟩, .notANumber, rfl, rfl, fun style => ?_⟩
  have hbare : BareWord (style.literal (.double .notANumber)) [.identifier "NaN"] := .notANumber
  refine ⟨hbare.not_isNumeral, ?_, hbare.tokens? (List.not_mem_nil) (List.not_mem_nil)⟩
  show ['N', 'a', 'N'] ≠ "<INVALID>".toList
  decide

end Pushdown.Filter
