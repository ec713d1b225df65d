import Pushdown.Predicate
import Pushdown.Proofs.Number.Plain
import Pushdown.Proofs.Sql.Lexer

/-!
# What a rendered condition says

The tokens that qualifiers stand for, and the proof that the escaped style renders exactly these:
of each qualifier its column, its operator and, if it has a value, one token for the value, with the
keyword `AND` in between. A text, whatever characters it has, is one string token that decodes to
the text, so no value can add, remove or change a condition.
-/

namespace Pushdown.Sql

open Number (IsNumeral pointed signed isNumeral_ofInt isNumeral_plain)
open Text (Stops takeWhile_append_stops dropWhile_append_stops)

variable {reserved : List String}

/-! ## Strings -/

/-- The body of a string with doubled quotes is read back, up to a closing quote that no other
quote follows. -/
theorem stringBody?_doubleQuotes {rest : List Char} (hrest : Breaks rest) (s : List Char) :
    stringBody? (doubleQuotes s ++ '\'' :: rest) = some (s, rest) := by
  induction s with
  | nil =>
    rw [doubleQuotes, List.nil_append, stringBody?]
    rintro t rfl
    exact absurd (hrest '\'' rfl) (by decide)
  | cons c s ih =>
    rw [doubleQuotes]
    split
    · rename_i hc
      subst hc
      simp only [List.cons_append, stringBody?, ih, Option.map_some]
    · rename_i hc
      rw [List.cons_append, stringBody?]
      · rw [ih, Option.map_some]
      · exact fun t h => absurd h hc
      · exact fun h => absurd h hc

/-- A quoted text is one token, whatever its characters are. -/
theorem lexesTo_quote (s : List Char) :
    LexesTo reserved (QuoteStyle.escaped.quote s) [.string (String.ofList s)] := by
  apply lexesTo_lexeme
  intro rest hrest
  rw [QuoteStyle.quote, List.cons_append, List.cons_append, List.append_assoc,
    List.singleton_append, lexeme?, stringBody?_doubleQuotes hrest, Option.map_some]

/-! ## Numerals -/

theorem isDigit_not_isLetter {c : Char} (h : c.isDigit = true) :
    isLetter c = false ∧ isSpace c = false ∧ c ≠ '\'' ∧ c ≠ '-' ∧ c ≠ '/' := by
  have hc := Number.forall_isDigit
    (p := fun c => !isLetter c && !isSpace c && c != '\'' && c != '-' && c != '/')
    (by decide +kernel) c h
  simpa [and_assoc] using hc

/-- A numeral is read up to where the text breaks, with its point and its fraction. -/
theorem decimal_pointed {whole fraction rest : List Char}
    (hwhole : ∀ c ∈ whole, c.isDigit = true) (hfraction : ∀ c ∈ fraction, c.isDigit = true)
    (hrest : Breaks rest) :
    decimal (pointed whole fraction ++ rest) = (pointed whole fraction, rest) := by
  have hdigits : Stops Char.isDigit rest := hrest.stops (by decide)
  unfold decimal pointed
  by_cases hnil : fraction.isEmpty = true
  · rw [if_pos hnil, List.append_nil, takeWhile_append_stops hwhole hdigits,
      dropWhile_append_stops hwhole hdigits]
    split
    · rename_i tail
      exact absurd (hrest '.' rfl) (by decide)
    · rfl
  · have hpoint : Stops Char.isDigit ('.' :: fraction ++ rest) := Text.stops_cons _ (by decide)
    rw [if_neg hnil, List.append_assoc, takeWhile_append_stops hwhole hpoint,
      dropWhile_append_stops hwhole hpoint]
    show (whole ++ '.' :: (fraction ++ rest).takeWhile Char.isDigit,
      (fraction ++ rest).dropWhile Char.isDigit) = (whole ++ '.' :: fraction, rest)
    rw [takeWhile_append_stops hfraction hdigits, dropWhile_append_stops hfraction hdigits]

/-- Behind its first character, a sign or a digit, a numeral is read to its end. -/
theorem lexeme?_numeral {c : Char} {s digits rest : List Char}
    (hstart : startsNumeral c s = true) (hc : c = '-' ∨ c.isDigit = true)
    (hline : c = '-' → s.head? ≠ some '-') (hdigits : decimal s = (digits, rest))
    (hrest : Breaks rest) :
    lexeme? reserved (c :: s) = some (some (.numeral (String.ofList (c :: digits))), rest) := by
  have hkind : isLetter c = false ∧ isSpace c = false ∧ c ≠ '\'' ∧ c ≠ '/' := by
    rcases hc with rfl | hc
    · decide
    · obtain ⟨hletter, hspace, hquote, _, hslash⟩ := isDigit_not_isLetter hc
      exact ⟨hletter, hspace, hquote, hslash⟩
  obtain ⟨hletter, hspace, hquote, hslash⟩ := hkind
  rw [lexeme?_cons hquote
    (fun t h => hline (List.cons.inj h).1 (by rw [(List.cons.inj h).2]; rfl))
    (fun t h => hslash (List.cons.inj h).1)]
  simp only [hspace, hletter, hstart, hdigits, hrest.headD]
  rfl

theorem lexesTo_numeral {s : List Char} (h : IsNumeral s) :
    LexesTo reserved s [.numeral (String.ofList s)] := by
  apply lexesTo_lexeme
  intro rest hrest
  obtain ⟨negative, whole, fraction, rfl, hne, hwhole, hfraction⟩ := h
  cases whole with
  | nil => exact absurd rfl hne
  | cons d ds =>
    have hd : d.isDigit = true := hwhole d List.mem_cons_self
    cases negative with
    | true =>
      -- The minus sign is the first character, and the digit behind it keeps it from being a comment.
      have hstart : startsNumeral '-' (pointed (d :: ds) fraction ++ rest) = true := by
        show (_ || _ && d.isDigit) = true
        rw [hd]
        decide
      exact lexeme?_numeral hstart (.inl rfl)
        (fun _ hdash => (isDigit_not_isLetter hd).2.2.2.1 (Option.some.inj hdash))
        (decimal_pointed hwhole hfraction hrest) hrest
    | false =>
      have hds : ∀ c ∈ ds, c.isDigit = true := fun c hc => hwhole c (List.mem_cons_of_mem d hc)
      have hstart : startsNumeral d (pointed ds fraction ++ rest) = true := by
        rw [startsNumeral, hd, Bool.true_or]
      exact lexeme?_numeral hstart (.inr hd)
        (fun hdash => absurd hdash (isDigit_not_isLetter hd).2.2.2.1)
        (decimal_pointed hds hfraction hrest) hrest

/-! ## Qualifiers -/

/-- The token of a literal. A list and what is no finite number have none. -/
def literalToken? : Literal → Option Token
  | .bool true => some (.keyword "TRUE")
  | .bool false => some (.keyword "FALSE")
  | .int n => some (.numeral (String.ofList (Number.ofInt n.toInt)))
  | .double x => if x.isFinite then some (.numeral (String.ofList x.plain)) else none
  | .string s => some (.string s)
  | .inet s => some (.string s)
  | .json document => some (.string document.compact)
  | .timestamp i => some (.string (String.ofList i.writeSeconds))
  | .list _ => none

/-- The tokens of an operator. -/
def operatorTokens : Operator → List Token
  | .isNull => [.keyword "IS", .keyword "NULL"]
  | .isNotNull => [.keyword "IS", .keyword "NOT", .keyword "NULL"]
  | op => [.operator op.sql]

/-- The tokens of a qualifier: its column, its operator and its value, if it has one. -/
def qualifierTokens (q : Qualifier) : List Token :=
  .identifier q.column :: operatorTokens q.operator ++ (q.value.bind literalToken?).toList

/-- The tokens of qualifiers, joined by `AND` in their order. -/
def conditionTokens (quals : List Qualifier) : List Token :=
  List.intercalate [.keyword "AND"] (quals.map qualifierTokens)

/-- Whether a text is a plain name: a word that is no keyword. -/
def isName (reserved : List String) : List Char → Bool
  | [] => false
  | c :: s => isLetter c && s.all isWordPart && !isKeyword reserved (c :: s)

/-- A qualifier with SQL: a plain name as its column, a value just if its operator compares with
one, and as the value no list and only finite numbers. -/
structure Renderable (reserved : List String) (q : Qualifier) : Prop where
  column : isName reserved q.column.toList = true
  value : q.value.isSome = !q.operator.isUnary
  literal : ∀ v, q.value = some v → (literalToken? v).isSome = true

theorem lexesTo_name {name : String} (h : isName reserved name.toList = true) :
    LexesTo reserved name.toList [.identifier name] := by
  cases hname : name.toList with
  | nil =>
    rw [hname] at h
    cases h
  | cons c s =>
    rw [hname] at h
    simp only [isName, Bool.and_eq_true, Bool.not_eq_true'] at h
    obtain ⟨⟨hc, hs⟩, hkeyword⟩ := h
    have hword : LexesTo reserved (c :: s) [ofWord reserved (c :: s)] := lexesTo_word hc hs
    rw [ofWord, hkeyword, if_neg (by decide), ← hname, String.ofList_toList] at hword
    rw [← hname]
    exact hword

theorem lexesTo_sql (op : Operator) :
    LexesTo reserved op.sql.toList (operatorTokens op) := by
  have his : LexesTo reserved ['I', 'S'] [.keyword "IS"] :=
    lexesTo_keyword (by decide) (by decide) (by decide)
  have hnot : LexesTo reserved ['N', 'O', 'T'] [.keyword "NOT"] :=
    lexesTo_keyword (by decide) (by decide) (by decide)
  have hnull : LexesTo reserved ['N', 'U', 'L', 'L'] [.keyword "NULL"] :=
    lexesTo_keyword (by decide) (by decide) (by decide)
  cases op with
  | isNull => exact his.append hnull
  | isNotNull => exact his.append (hnot.append hnull)
  | _ => exact lexesTo_operator (by decide) (by decide)

/-- A literal is one token in the escaped style. -/
theorem lexesTo_literal {v : Literal} {token : Token} (h : literalToken? v = some token) :
    LexesTo reserved (QuoteStyle.escaped.literal v) [token] := by
  cases v with
  | bool b =>
    cases b <;> cases h <;> exact lexesTo_keyword (by decide) (by decide) (by decide)
  | int n =>
    cases h
    exact lexesTo_numeral (isNumeral_ofInt n.toInt)
  | double x =>
    rw [literalToken?] at h
    split at h
    · rename_i hfinite
      cases h
      exact lexesTo_numeral (isNumeral_plain hfinite)
    · cases h
  | string s | inet s =>
    cases h
    have hquote : LexesTo reserved _ _ := lexesTo_quote s.toList
    rw [String.ofList_toList] at hquote
    exact hquote
  | json document =>
    cases h
    exact lexesTo_quote document.write
  | timestamp i =>
    cases h
    exact lexesTo_quote i.writeSeconds
  | list items => cases h

theorem lexesTo_condition {q : Qualifier} (h : Renderable reserved q) :
    LexesTo reserved (QuoteStyle.escaped.condition q) (qualifierTokens q) := by
  have hname := lexesTo_name h.column
  have hsql : LexesTo reserved q.operator.sql.toList _ := lexesTo_sql q.operator
  cases hvalue : q.value with
  | none =>
    simp only [QuoteStyle.condition, qualifierTokens, hvalue, Option.bind_none, Option.toList_none,
      List.append_nil]
    exact hname.append hsql
  | some v =>
    obtain ⟨token, htoken⟩ := Option.isSome_iff_exists.mp (h.literal v hvalue)
    simp only [QuoteStyle.condition, qualifierTokens, hvalue, Option.bind_some, htoken,
      Option.toList_some]
    rw [List.append_assoc, List.cons_append]
    exact hname.append (hsql.append (lexesTo_literal htoken))

theorem lexesTo_conditions {q : Qualifier} {quals : List Qualifier}
    (h : ∀ p ∈ q :: quals, Renderable reserved p) :
    LexesTo reserved (QuoteStyle.escaped.conditions (q :: quals))
      (conditionTokens (q :: quals)) := by
  induction quals generalizing q with
  | nil =>
    rw [QuoteStyle.conditions, conditionTokens, List.map_singleton, List.intercalate_singleton]
    exact lexesTo_condition (h q List.mem_cons_self)
  | cons p quals ih =>
    have hq := lexesTo_condition (h q List.mem_cons_self)
    have hand : LexesTo reserved ['A', 'N', 'D'] [.keyword "AND"] :=
      lexesTo_keyword (by decide) (by decide) (by decide)
    have hrest := ih fun r hr => h r (List.mem_cons_of_mem q hr)
    have htokens : conditionTokens (q :: p :: quals) =
        qualifierTokens q ++ ([.keyword "AND"] ++ conditionTokens (p :: quals)) := by
      rw [conditionTokens, List.map_cons, List.map_cons, List.intercalate_cons_cons,
        List.append_assoc]
      rfl
    have htext : QuoteStyle.escaped.conditions (q :: p :: quals) =
        QuoteStyle.escaped.condition q ++
          ' ' :: (['A', 'N', 'D'] ++ ' ' :: QuoteStyle.escaped.conditions (p :: quals)) := by
      rw [QuoteStyle.conditions, List.append_assoc]
      · rfl
      · exact List.cons_ne_nil p quals
    rw [htokens, htext]
    exact hq.append (hand.append hrest)

/-- The escaped style renders exactly the tokens of the qualifiers. -/
theorem tokens?_render (reserved : List String) (quals : List Qualifier)
    (h : ∀ q ∈ quals, Renderable reserved q) :
    tokens? reserved (QuoteStyle.escaped.render quals).toList = some (conditionTokens quals) := by
  rw [QuoteStyle.render, String.toList_ofList]
  cases quals with
  | nil => exact tokens?_nil
  | cons q quals => exact (lexesTo_conditions h).tokens?

/-- Values that end in a quote, consist of quotes, look like more conditions or open a comment. -/
def hostileQuals : List Qualifier :=
  [⟨"name", .equal, some (.string "x' OR 'a'='a'; --")⟩,
    ⟨"addr$1", .notEqual, some (.inet "'''")⟩,
    ⟨"deleted_at", .isNotNull, none⟩,
    ⟨"meta", .like, some (.json (.object [("it's", .string "/* \" AND 1=1")]))⟩,
    ⟨"_age", .lessEqual, some (.int (-5))⟩,
    ⟨"score", .greater, some (.double (.ofQuotient true 1 4))⟩]

/-- Each of the hostile values stays one token. -/
theorem tokens?_hostile :
    (∀ q ∈ hostileQuals, Renderable ["SELECT"] q) ∧
      tokens? ["SELECT"] (QuoteStyle.escaped.render hostileQuals).toList =
        some
          [.identifier "name", .operator "=", .string "x' OR 'a'='a'; --", .keyword "AND",
            .identifier "addr$1", .operator "!=", .string "'''", .keyword "AND",
            .identifier "deleted_at", .keyword "IS", .keyword "NOT", .keyword "NULL",
            .keyword "AND", .identifier "meta", .operator "~~",
            .string "\x7b\"it's\":\"/* \\\" AND 1=1\"\x7d", .keyword "AND",
            .identifier "_age", .operator "<=", .numeral "-5", .keyword "AND",
            .identifier "score", .operator ">", .numeral "-0.25"] := by
  have h : ∀ q ∈ hostileQuals, Renderable ["SELECT"] q := by
    intro q hq
    simp only [hostileQuals, List.mem_cons, List.not_mem_nil, or_false] at hq
    rcases hq with rfl | rfl | rfl | rfl | rfl | rfl <;>
      exact ⟨by decide +kernel, by decide, by rintro v ⟨⟩ <;> rfl⟩
  refine ⟨h, (tokens?_render ["SELECT"] hostileQuals h).trans ?_⟩
  decide +kernel

end Pushdown.Sql
