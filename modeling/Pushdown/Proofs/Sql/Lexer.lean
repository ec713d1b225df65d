import Mathlib
import Pushdown.Proofs.Text.Span

/-!
# Tokens of SQL

A reference reader of the lexical structure of a condition, written from the rules of the database
and not from what renders one. White space and comments stand between tokens; a line comment starts
with two dashes, a block comment nests. A word is a letter or underscore with letters, digits,
underscores and dollar signs behind it. An operator is a longest run of operator characters that no
comment interrupts. A numeral may have a sign and a point. A string stands between single quotes,
of which two inside it spell one, and a backslash in it is an ordinary character. A text with
anything else in it has no tokens.

Main statements: words and operators are read at the front of a text exactly (`lexeme?_word`,
`lexeme?_operator`), and the tokens of a text can be put together from those of its parts
(`LexesTo.append`).
-/

namespace Pushdown.Sql

open Text (Stops stops_nil stops_cons takeWhile_append_stops dropWhile_append_stops)

/-- A token. Keywords are in capitals and names as they are written. -/
inductive Token where
  | keyword (word : String)
  | identifier (name : String)
  | operator (symbol : String)
  | numeral (text : String)
  | string (text : String)
  deriving DecidableEq, Repr

/-! ## Characters -/

/-- White space between tokens. -/
def isSpace (c : Char) : Bool :=
  c == ' ' || c == '\t' || c == '\n' || c == '\r' || c == '\x0b' || c == '\x0c'

/-- Characters a word may start with: letters, the underscore and all that is not ASCII. -/
def isLetter (c : Char) : Bool :=
  c.isAlpha || c == '_' || 128 ≤ c.toNat

/-- Characters a word may go on with. -/
def isWordPart (c : Char) : Bool :=
  isLetter c || c.isDigit || c == '$'

/-- The characters of operators, the backquote among them. -/
def symbolChars : List Char :=
  ['+', '-', '*', '/', '<', '>', '=', '~', '!', '@', '#', '%', '^', '&', '|', '\x60', '?']

/-- Characters of operators. -/
def isSymbol (c : Char) : Bool :=
  symbolChars.contains c

/-- Characters of operators that no comment starts with. -/
def isPlainSymbol (c : Char) : Bool :=
  isSymbol c && c != '-' && c != '/'

/-! ## Single lexemes -/

/-- The characters of a string behind its opening quote and what follows its closing quote. -/
def stringBody? : List Char → Option (List Char × List Char)
  | [] => none
  | '\'' :: '\'' :: s => (stringBody? s).map fun (text, rest) => ('\'' :: text, rest)
  | '\'' :: s => some ([], s)
  | c :: s => (stringBody? s).map fun (text, rest) => (c :: text, rest)

/-- What follows a block comment in which `depth` more comments are open. -/
def afterComment? : (depth : Nat) → List Char → Option (List Char)
  | _, [] => none
  | depth, '/' :: '*' :: s => afterComment? (depth + 1) s
  | 0, '*' :: '/' :: s => some s
  | depth + 1, '*' :: '/' :: s => afterComment? depth s
  | depth, _ :: s => afterComment? depth s

/-- The operator characters at the start of a text, up to a comment, and what follows them. -/
def symbols : List Char → List Char × List Char
  | [] => ([], [])
  | '-' :: '-' :: s => ([], '-' :: '-' :: s)
  | '/' :: '*' :: s => ([], '/' :: '*' :: s)
  | c :: s => if isSymbol c then (c :: (symbols s).1, (symbols s).2) else ([], c :: s)

/-- The digits at the start of a text, with a point and digits behind it if there is one, and what
follows them. -/
def decimal (s : List Char) : List Char × List Char :=
  match s.dropWhile Char.isDigit with
  | '.' :: rest =>
    (s.takeWhile Char.isDigit ++ '.' :: rest.takeWhile Char.isDigit, rest.dropWhile Char.isDigit)
  | rest => (s.takeWhile Char.isDigit, rest)

/-- Whether a numeral starts with a character: a digit, or a sign that a digit follows. -/
def startsNumeral (c : Char) (s : List Char) : Bool :=
  c.isDigit || ((c == '+' || c == '-') && (s.headD ' ').isDigit)

/-- The keywords of conditions. -/
def conditionWords : List String :=
  ["AND", "FALSE", "IS", "NOT", "NULL", "TRUE"]

/-- Whether a word is a keyword, in any case of letters: one of conditions or of the further ones
that are reserved. -/
def isKeyword (reserved : List String) (word : List Char) : Bool :=
  let capitals := String.ofList (Text.upper word)
  conditionWords.contains capitals || reserved.contains capitals

/-- The token of a word. -/
def ofWord (reserved : List String) (word : List Char) : Token :=
  if isKeyword reserved word then .keyword (String.ofList (Text.upper word))
  else .identifier (String.ofList word)

/-- The lexeme at the start of a text, without a token if it is white space or a comment, and what
follows it. A word or a numeral does not run into a quote or a word. -/
def lexeme? (reserved : List String) : List Char → Option (Option Token × List Char)
  | [] => none
  | '\'' :: s => (stringBody? s).map fun (text, rest) => (some (.string (String.ofList text)), rest)
  | '-' :: '-' :: s => some (none, s.dropWhile (· ≠ '\n'))
  | '/' :: '*' :: s => (afterComment? 0 s).map fun rest => (none, rest)
  | c :: s =>
    if isSpace c then some (none, s)
    else if isLetter c then
      let rest := s.dropWhile isWordPart
      if rest.headD ' ' = '\'' then none
      else some (some (ofWord reserved (c :: s.takeWhile isWordPart)), rest)
    else if startsNumeral c s then
      let (digits, rest) := decimal s
      if isWordPart (rest.headD ' ') || rest.headD ' ' = '.' then none
      else some (some (.numeral (String.ofList (c :: digits))), rest)
    else if isSymbol c then
      some (some (.operator (String.ofList (c :: (symbols s).1))), (symbols s).2)
    else none

/-! ## Every lexeme takes something -/

theorem length_stringBody? {s text rest : List Char} (h : stringBody? s = some (text, rest)) :
    rest.length < s.length := by
  induction s using stringBody?.induct generalizing text rest with
  | case1 => cases h
  | case2 s ih =>
    obtain ⟨⟨t, r⟩, hr, heq⟩ := Option.map_eq_some_iff.mp h
    cases heq
    have := ih hr
    simp only [List.length_cons]
    omega
  | case3 s hs =>
    rw [stringBody?] at h
    · cases h
      simp
    · exact hs
  | case4 c s hpair hquote ih =>
    rw [stringBody?] at h
    · obtain ⟨⟨t, r⟩, hr, heq⟩ := Option.map_eq_some_iff.mp h
      cases heq
      have := ih hr
      simp only [List.length_cons]
      omega
    · exact hpair
    · exact hquote

theorem length_afterComment? {depth : Nat} {s rest : List Char}
    (h : afterComment? depth s = some rest) : rest.length ≤ s.length := by
  fun_induction afterComment? depth s with
  | case1 => cases h
  | case2 depth s ih | case4 depth s ih =>
    have := ih h
    simp only [List.length_cons]
    omega
  | case3 s =>
    cases h
    simp only [List.length_cons]
    omega
  | case5 depth c s _ _ _ ih =>
    have := ih h
    simp only [List.length_cons]
    omega

theorem length_symbols (s : List Char) : (symbols s).2.length ≤ s.length := by
  fun_induction symbols s with
  | case1 | case2 | case3 | case5 => exact le_rfl
  | case4 c s _ _ _ ih =>
    simp only [List.length_cons]
    omega

theorem length_decimal (s : List Char) : (decimal s).2.length ≤ s.length := by
  have hwhole := List.length_dropWhile_le Char.isDigit s
  unfold decimal
  split
  · rename_i rest hrest
    have hfraction := List.length_dropWhile_le Char.isDigit rest
    rw [hrest, List.length_cons] at hwhole
    show (rest.dropWhile Char.isDigit).length ≤ s.length
    omega
  · exact hwhole

theorem length_lexeme? {reserved : List String} {s rest : List Char} {token : Option Token}
    (h : lexeme? reserved s = some (token, rest)) : rest.length < s.length := by
  unfold lexeme? at h
  split at h
  · cases h
  · rename_i s
    obtain ⟨⟨text, r⟩, hr, heq⟩ := Option.map_eq_some_iff.mp h
    cases heq
    have := length_stringBody? hr
    simp only [List.length_cons]
    omega
  · rename_i s
    cases h
    have := List.length_dropWhile_le (· ≠ '\n') s
    simp only [List.length_cons]
    omega
  · rename_i s
    obtain ⟨r, hr, heq⟩ := Option.map_eq_some_iff.mp h
    cases heq
    have := length_afterComment? hr
    simp only [List.length_cons]
    omega
  · rename_i c s _ _ _
    have hword := List.length_dropWhile_le isWordPart s
    have hdecimal := length_decimal s
    have hsymbols := length_symbols s
    rw [List.length_cons]
    split at h
    · cases h
      exact Nat.lt_succ_self _
    · split at h
      · simp only at h
        split at h
        · cases h
        · cases h
          omega
      · split at h
        · simp only at h
          split at h
          · cases h
          · cases h
            omega
        · split at h
          · cases h
            omega
          · cases h

/-! ## Token sequences -/

/-- The tokens of a text, if it has any. -/
def tokens? (reserved : List String) : List Char → Option (List Token)
  | [] => some []
  | c :: s =>
    match _h : lexeme? reserved (c :: s) with
    | none => none
    | some (token, rest) => (tokens? reserved rest).map (token.toList ++ ·)
termination_by s => s.length
decreasing_by exact length_lexeme? _h

variable {reserved : List String}

@[simp] theorem tokens?_nil : tokens? reserved [] = some [] := by
  rw [tokens?]

/-- Tokens are read one lexeme after the other. -/
theorem tokens?_lexeme {s rest : List Char} {token : Option Token}
    (h : lexeme? reserved s = some (token, rest)) :
    tokens? reserved s = (tokens? reserved rest).map (token.toList ++ ·) := by
  cases s with
  | nil => cases h
  | cons c s =>
    rw [tokens?]
    split
    · rename_i hnone
      rw [h] at hnone
      cases hnone
    · rename_i token' rest' hsome
      rw [h] at hsome
      cases hsome
      rfl

/-- White space in front is passed over. -/
theorem tokens?_space (s : List Char) : tokens? reserved (' ' :: s) = tokens? reserved s := by
  have h : lexeme? reserved (' ' :: s) = some (none, s) := rfl
  rw [tokens?_lexeme h]
  exact Option.map_id'

/-! ## Single tokens at the front of a text -/

/-- A text that is at its end or at a space, where every token ends. -/
def Breaks (s : List Char) : Prop :=
  Stops (· ≠ ' ') s

theorem breaks_nil : Breaks [] :=
  stops_nil _

theorem breaks_space (s : List Char) : Breaks (' ' :: s) :=
  stops_cons s rfl

/-- Where every token ends, each kind of characters ends that the space is not of. -/
theorem Breaks.stops {p : Char → Bool} {s : List Char} (h : Breaks s) (hp : p ' ' = false) :
    Stops p s := by
  intro c hc
  have : c = ' ' := by simpa using h c hc
  rw [this]
  exact hp

theorem Breaks.headD {s : List Char} (h : Breaks s) : s.headD ' ' = ' ' := by
  cases s with
  | nil => rfl
  | cons c s => simpa using h c rfl

/-- A lexeme that starts with no quote and no comment is read by its first character. -/
theorem lexeme?_cons {c : Char} {s : List Char} (hquote : c ≠ '\'')
    (hline : ∀ t, c :: s ≠ '-' :: '-' :: t) (hblock : ∀ t, c :: s ≠ '/' :: '*' :: t) :
    lexeme? reserved (c :: s) =
      if isSpace c then some (none, s)
      else if isLetter c then
        let rest := s.dropWhile isWordPart
        if rest.headD ' ' = '\'' then none
        else some (some (ofWord reserved (c :: s.takeWhile isWordPart)), rest)
      else if startsNumeral c s then
        let (digits, rest) := decimal s
        if isWordPart (rest.headD ' ') || rest.headD ' ' = '.' then none
        else some (some (.numeral (String.ofList (c :: digits))), rest)
      else if isSymbol c then
        some (some (.operator (String.ofList (c :: (symbols s).1))), (symbols s).2)
      else none := by
  rw [lexeme?]
  · exact fun h => hquote h
  · rintro t rfl rfl
    exact hline t rfl
  · rintro t rfl rfl
    exact hblock t rfl

theorem isLetter_ne {c d : Char} (hc : isLetter c = true) (hd : isLetter d = false) : c ≠ d := by
  rintro rfl
  rw [hc] at hd
  cases hd

theorem isSpace_of_isLetter {c : Char} (h : isLetter c = true) : isSpace c = false := by
  have hne : ∀ d, isLetter d = false → (c == d) = false := fun d hd =>
    beq_eq_false_iff_ne.mpr (isLetter_ne h hd)
  simp only [isSpace, hne ' ' (by decide), hne '\t' (by decide), hne '\n' (by decide),
    hne '\r' (by decide), hne '\x0b' (by decide), hne '\x0c' (by decide), Bool.or_self]

/-- A word is read up to where the text breaks. -/
theorem lexeme?_word {c : Char} {word rest : List Char} (hc : isLetter c = true)
    (hword : word.all isWordPart = true) (hrest : Breaks rest) :
    lexeme? reserved (c :: word ++ rest) = some (some (ofWord reserved (c :: word)), rest) := by
  have hall := List.all_eq_true.mp hword
  have hstops : Stops isWordPart rest := hrest.stops (by decide)
  have hne : ∀ d t, isLetter d = false → c :: (word ++ rest) ≠ d :: t := fun d t hd h =>
    isLetter_ne hc hd (List.cons.inj h).1
  -- A letter is no quote and opens no comment, so the forms of tokens are tried in their order.
  rw [List.cons_append, lexeme?_cons (isLetter_ne hc (by decide))
    (fun t => hne '-' ('-' :: t) (by decide)) (fun t => hne '/' ('*' :: t) (by decide))]
  simp only [isSpace_of_isLetter hc, hc, takeWhile_append_stops hall hstops,
    dropWhile_append_stops hall hstops, hrest.headD]
  simp only [Bool.false_eq_true, if_false, if_true, Char.reduceEq]

theorem isPlainSymbol_iff {c : Char} :
    isPlainSymbol c = true ↔ isSymbol c = true ∧ c ≠ '-' ∧ c ≠ '/' := by
  simp [isPlainSymbol, and_assoc]

theorem isSymbol_cases {c : Char} (h : isSymbol c = true) :
    c.isDigit = false ∧ isLetter c = false ∧ isSpace c = false ∧ c ≠ '\'' := by
  have hall : (symbolChars.all fun d =>
      !d.isDigit && !isLetter d && !isSpace d && d != '\'') = true := by decide +kernel
  have hc := List.all_eq_true.mp hall c (List.contains_iff_mem.mp h)
  simpa [and_assoc] using hc

/-- A run of operator characters in which no comment can start is taken whole. -/
theorem symbols_append {run rest : List Char}
    (hrun : run.all isPlainSymbol = true) (hrest : Stops isSymbol rest) :
    symbols (run ++ rest) = (run, rest) := by
  induction run with
  | nil =>
    cases rest with
    | nil => rfl
    | cons c rest =>
      have hc := hrest c rfl
      rw [List.nil_append, symbols]
      · rw [if_neg (by simp [hc])]
      · rintro t rfl
        exact absurd hc (by decide)
      · rintro t rfl
        exact absurd hc (by decide)
  | cons c run ih =>
    rw [List.all_cons, Bool.and_eq_true] at hrun
    obtain ⟨hc, hdash, hslash⟩ := isPlainSymbol_iff.mp hrun.1
    have htail := ih hrun.2
    rw [List.cons_append, symbols]
    · rw [if_pos hc, htail]
    · exact fun t h => absurd h hdash
    · exact fun t h => absurd h hslash

/-- An operator without dashes and slashes is read up to where the text breaks. -/
theorem lexeme?_operator {c : Char} {run rest : List Char}
    (hrun : (c :: run).all isPlainSymbol = true) (hplus : c ≠ '+') (hrest : Breaks rest) :
    lexeme? reserved (c :: run ++ rest) =
      some (some (.operator (String.ofList (c :: run))), rest) := by
  rw [List.all_cons, Bool.and_eq_true] at hrun
  obtain ⟨hc, hdash, hslash⟩ := isPlainSymbol_iff.mp hrun.1
  obtain ⟨hdigit, hletter, hspace, hquote⟩ := isSymbol_cases hc
  have hsymbols : symbols (run ++ rest) = (run, rest) :=
    symbols_append hrun.2 (hrest.stops (by decide))
  rw [List.cons_append, lexeme?_cons hquote (fun t h => hdash (List.cons.inj h).1)
    (fun t h => hslash (List.cons.inj h).1)]
  simp only [hspace, hletter, startsNumeral, hdigit, beq_eq_false_iff_ne.mpr hplus,
    beq_eq_false_iff_ne.mpr hdash, hc, hsymbols]
  simp only [Bool.false_eq_true, if_false, if_true, Bool.or_self, Bool.false_and]

/-! ## Putting tokens together -/

/-- Wherever a text breaks behind `s`, its tokens start with the given ones. -/
def LexesTo (reserved : List String) (s : List Char) (tokens : List Token) : Prop :=
  ∀ rest, Breaks rest →
    tokens? reserved (s ++ rest) = (tokens? reserved rest).map (tokens ++ ·)

theorem lexesTo_lexeme {s : List Char} {token : Token}
    (h : ∀ rest, Breaks rest → lexeme? reserved (s ++ rest) = some (some token, rest)) :
    LexesTo reserved s [token] := by
  intro rest hrest
  rw [tokens?_lexeme (h rest hrest)]
  rfl

/-- Of two parts with a space between them, the tokens follow one another. -/
theorem LexesTo.append {s t : List Char} {ss ts : List Token} (hs : LexesTo reserved s ss)
    (ht : LexesTo reserved t ts) : LexesTo reserved (s ++ ' ' :: t) (ss ++ ts) := by
  intro rest hrest
  rw [List.append_assoc, List.cons_append, hs _ (breaks_space _), tokens?_space, ht rest hrest,
    Option.map_map]
  congr 1
  funext us
  exact (List.append_assoc ss ts us).symm

/-- The tokens of a whole text. -/
theorem LexesTo.tokens? {s : List Char} {ts : List Token} (h : LexesTo reserved s ts) :
    Sql.tokens? reserved s = some ts := by
  have hnil := h [] breaks_nil
  rw [List.append_nil, tokens?_nil, Option.map_some, List.append_nil] at hnil
  exact hnil

theorem lexesTo_word {c : Char} {word : List Char} (hc : isLetter c = true)
    (hword : word.all isWordPart = true) :
    LexesTo reserved (c :: word) [ofWord reserved (c :: word)] :=
  lexesTo_lexeme fun _ hrest => lexeme?_word hc hword hrest

/-- A keyword of conditions is a keyword whatever else is reserved. -/
theorem lexesTo_keyword {c : Char} {word : List Char} (hc : isLetter c = true)
    (hword : word.all isWordPart = true)
    (hkeyword : String.ofList (Text.upper (c :: word)) ∈ conditionWords) :
    LexesTo reserved (c :: word) [.keyword (String.ofList (Text.upper (c :: word)))] := by
  have h : LexesTo reserved (c :: word) [ofWord reserved (c :: word)] := lexesTo_word hc hword
  rw [ofWord, if_pos] at h
  · exact h
  · rw [isKeyword, List.contains_iff_mem.mpr hkeyword, Bool.true_or]

theorem lexesTo_operator {c : Char} {run : List Char}
    (hrun : (c :: run).all isPlainSymbol = true) (hplus : c ≠ '+') :
    LexesTo reserved (c :: run) [.operator (String.ofList (c :: run))] :=
  lexesTo_lexeme fun _ hrest => lexeme?_operator hrun hplus hrest

end Pushdown.Sql
