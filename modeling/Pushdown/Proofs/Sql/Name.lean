import Pushdown.Predicate
import Pushdown.Proofs.Sql.Lexer

/-!
# Names in statements

How the database reads names that stand in a statement without quotes: a word, which is a letter or
an underscore with letters, digits, underscores and dollar signs behind it, stands for the name in
which its ASCII capitals are made small. A folded word has no capitals, and only such a word stands
for itself. Main statements: where the schema and the table of a statement are words, its `FROM`
clause is the two names that they stand for (`fromClause?_selectStatement`), and whatever the
statement is, the name of a table that is read is folded (`fromClause?_folded`). The schema alone is
read in front of any table (`schema?_selectStatement`).
-/

namespace Pushdown.Sql

open Text (Stops lower stops_cons stops_append dropWhile_stops takeWhile_append_stops
  dropWhile_append_stops)

/-! ## Names -/

/-- Whether a text is a word: a letter and characters that a word may go on with. -/
def isWord : List Char → Bool
  | [] => false
  | c :: word => isLetter c && word.all isWordPart

/-- Whether a text is a word without ASCII capitals. -/
def isFolded (s : List Char) : Bool :=
  isWord s && s.all fun c => !c.isUpper

/-- The name that the word at the start of a text stands for, and what follows the word. -/
def name? : List Char → Option (List Char × List Char)
  | [] => none
  | c :: s =>
    if isLetter c then some (lower (c :: s.takeWhile isWordPart), s.dropWhile isWordPart) else none

/-- A character made small is the same one or a letter. -/
theorem toLower_cases (c : Char) : c.toLower = c ∨ c.toLower.isAlpha = true := by
  by_cases hupper : c.isUpper = true
  · right
    rw [Char.isAlpha_toLower_eq_isAlpha]
    simp [Char.isAlpha, hupper]
  · exact .inl (Char.toLower_eq_of_not_isUpper hupper)

theorem isLetter_toLower {c : Char} (h : isLetter c = true) : isLetter c.toLower = true := by
  rcases toLower_cases c with hsame | halpha
  · rwa [hsame]
  · simp [isLetter, halpha]

theorem isWordPart_toLower {c : Char} (h : isWordPart c = true) :
    isWordPart c.toLower = true := by
  rcases toLower_cases c with hsame | halpha
  · rwa [hsame]
  · simp [isWordPart, isLetter, halpha]

/-- Making capitals small leaves a text alone just if it has none. -/
theorem lower_eq_self_iff {s : List Char} : lower s = s ↔ ∀ c ∈ s, c.isUpper = false := by
  have hid : lower s = s ↔ s.map Char.toLower = s.map id := by
    rw [List.map_id]
    rfl
  rw [hid, List.map_inj_left]
  refine forall₂_congr fun c _ => ?_
  rw [id_eq]
  constructor
  · intro hsame
    rw [← hsame]
    exact Char.isUpper_toLower_eq_false c
  · intro hupper
    exact Char.toLower_eq_of_not_isUpper (by simp [hupper])

theorem isFolded_iff {s : List Char} :
    isFolded s = true ↔ isWord s = true ∧ lower s = s := by
  rw [lower_eq_self_iff]
  simp [isFolded]

theorem isFolded_lower {s : List Char} (h : isWord s = true) : isFolded (lower s) = true := by
  cases s with
  | nil => cases h
  | cons c word =>
    obtain ⟨hc, hword⟩ := Bool.and_eq_true_iff.mp h
    have hlower : isWord (lower (c :: word)) = true := by
      refine Bool.and_eq_true_iff.mpr ⟨isLetter_toLower hc, List.all_eq_true.mpr ?_⟩
      intro d hd
      obtain ⟨e, he, rfl⟩ := List.mem_map.mp hd
      exact isWordPart_toLower (List.all_eq_true.mp hword e he)
    exact isFolded_iff.mpr ⟨hlower, by simp [lower]⟩

/-- A word is read up to its end, with its capitals made small. -/
theorem name?_append {s rest : List Char} (hs : isWord s = true) (hrest : Stops isWordPart rest) :
    name? (s ++ rest) = some (lower s, rest) := by
  cases s with
  | nil => cases hs
  | cons c word =>
    obtain ⟨hc, hword⟩ := Bool.and_eq_true_iff.mp hs
    have hall := List.all_eq_true.mp hword
    rw [List.cons_append, name?, if_pos hc, takeWhile_append_stops hall hrest,
      dropWhile_append_stops hall hrest]

/-- Whatever word a name is read from, the name is folded. -/
theorem name?_folded {s name rest : List Char} (h : name? s = some (name, rest)) :
    isFolded name = true := by
  cases s with
  | nil => cases h
  | cons c s =>
    rw [name?] at h
    split at h
    · rename_i hc
      cases h
      exact isFolded_lower (Bool.and_eq_true_iff.mpr ⟨hc, List.all_takeWhile⟩)
    · cases h

/-! ## The clause that names the table -/

/-- The name of a schema and of a table in it at the start of a text, with a point between them,
and what follows. -/
def relation? (s : List Char) : Option ((List Char × List Char) × List Char) := do
  let (schema, rest) ← name? s
  let rest ← (rest.dropWhile isSpace).dropPrefix? ['.']
  let (table, rest) ← name? (rest.dropWhile isSpace)
  return ((schema, table), rest)

/-- Whether the `FROM` clause is over: the statement is at its end or goes on with a condition. -/
def endsFrom (s : List Char) : Bool :=
  let rest := s.dropWhile isSpace
  rest.isEmpty || (name? rest).any fun (word, _) => word = "where".toList

/-- The schema and the table that a statement reads all columns of, if its `FROM` clause is the name
of one table. -/
def fromClause? (sql : String) : Option (String × String) := do
  let rest ← sql.toList.dropPrefix? "SELECT * FROM ".toList
  let ((schema, table), rest) ← relation? rest
  if endsFrom rest then some (String.ofList schema, String.ofList table) else none

theorem stops_isSpace_of_isWord {s : List Char} (rest : List Char) (hs : isWord s = true) :
    Stops isSpace (s ++ rest) := by
  cases s with
  | nil => cases hs
  | cons c word =>
    exact stops_cons _ (isSpace_of_isLetter (Bool.and_eq_true_iff.mp hs).1)

theorem relation?_append {schema table rest : List Char} (hschema : isWord schema = true)
    (htable : isWord table = true) (hrest : Stops isWordPart rest) :
    relation? (schema ++ '.' :: (table ++ rest)) = some ((lower schema, lower table), rest) := by
  have hfirst : name? (schema ++ '.' :: (table ++ rest)) =
      some (lower schema, '.' :: (table ++ rest)) :=
    name?_append hschema (stops_cons _ (by decide))
  have hspace : ('.' :: (table ++ rest)).dropWhile isSpace = '.' :: (table ++ rest) :=
    dropWhile_stops (stops_cons _ (by decide))
  have hpoint : ('.' :: (table ++ rest)).dropPrefix? ['.'] = some (table ++ rest) := by
    simp [List.dropPrefix?]
  simp only [relation?, Option.bind_eq_bind, Option.bind_some, Option.pure_def, hfirst, hspace,
    hpoint, dropWhile_stops (stops_isSpace_of_isWord rest htable), name?_append htable hrest]

/-- A statement that reads a table is over behind its name or goes on with the condition. -/
theorem toList_selectStatement (schema table condition : String) :
    ∃ rest, (selectStatement schema table condition).toList =
        "SELECT * FROM ".toList ++ (schema.toList ++ '.' :: (table.toList ++ rest)) ∧
      Stops isWordPart rest ∧ endsFrom rest = true := by
  unfold selectStatement
  dsimp only
  split
  · exact ⟨[], by simp, Text.stops_nil _, rfl⟩
  · refine ⟨" WHERE ".toList ++ condition.toList, by simp, stops_cons _ (by decide), ?_⟩
    have hword : name? ("WHERE".toList ++ ' ' :: condition.toList) =
        some ("where".toList, ' ' :: condition.toList) :=
      name?_append (by decide) (stops_cons _ (by decide))
    have hspace : (" WHERE ".toList ++ condition.toList).dropWhile isSpace =
        "WHERE".toList ++ ' ' :: condition.toList := by
      simp [isSpace]
    simp only [endsFrom, hspace, hword]
    rfl

/-- Behind its keywords such a statement goes on with the schema, a point and the table. -/
theorem dropPrefix?_selectStatement (schema table condition : String) :
    ∃ rest, (selectStatement schema table condition).toList.dropPrefix? "SELECT * FROM ".toList =
        some (schema.toList ++ '.' :: (table.toList ++ rest)) ∧
      Stops isWordPart rest ∧ endsFrom rest = true := by
  obtain ⟨rest, htext, hstops, hends⟩ := toList_selectStatement schema table condition
  refine ⟨rest, ?_, hstops, hends⟩
  rw [htext, List.dropPrefix?_append_of_beq _ BEq.rfl]

/-- The words that stand in a statement are read with their capitals made small. -/
theorem fromClause?_selectStatement {schema table : String} (condition : String)
    (hschema : isWord schema.toList = true) (htable : isWord table.toList = true) :
    fromClause? (selectStatement schema table condition) =
      some (String.ofList (lower schema.toList), String.ofList (lower table.toList)) := by
  obtain ⟨rest, htext, hstops, hends⟩ := dropPrefix?_selectStatement schema table condition
  unfold fromClause?
  rw [htext]
  show (relation? _).bind _ = _
  rw [relation?_append hschema htable hstops]
  show (if endsFrom rest then _ else _) = _
  rw [if_pos hends]

/-- The table that a statement reads has a folded name. -/
theorem fromClause?_folded {sql schema table : String}
    (h : fromClause? sql = some (schema, table)) : isFolded table.toList = true := by
  obtain ⟨rest, _, h⟩ := Option.bind_eq_some_iff.mp h
  obtain ⟨⟨⟨s, t⟩, rest⟩, hrelation, h⟩ := Option.bind_eq_some_iff.mp h
  obtain ⟨⟨_, rest⟩, _, hrelation⟩ := Option.bind_eq_some_iff.mp hrelation
  obtain ⟨rest, _, hrelation⟩ := Option.bind_eq_some_iff.mp hrelation
  obtain ⟨⟨name, _⟩, hname, hrelation⟩ := Option.bind_eq_some_iff.mp hrelation
  cases hrelation
  dsimp only at h
  split at h
  · cases h
    rw [String.toList_ofList]
    exact name?_folded hname
  · cases h

/-! ## The schema in front of the table -/

/-- The schema of the table that a statement reads all columns of, if its `FROM` clause starts with a
name and a point. -/
def schema? (sql : String) : Option String := do
  let rest ← sql.toList.dropPrefix? "SELECT * FROM ".toList
  let (schema, rest) ← name? rest
  if (rest.dropWhile isSpace).head? = some '.' then some (String.ofList schema) else none

/-- A word in front of the point is read with its capitals made small, whatever the table is. -/
theorem schema?_selectStatement {schema : String} (table condition : String)
    (hschema : isWord schema.toList = true) :
    schema? (selectStatement schema table condition) =
      some (String.ofList (lower schema.toList)) := by
  obtain ⟨rest, htext, _, _⟩ := dropPrefix?_selectStatement schema table condition
  have hname : name? (schema.toList ++ '.' :: (table.toList ++ rest)) =
      some (lower schema.toList, '.' :: (table.toList ++ rest)) :=
    name?_append hschema (stops_cons _ (by decide))
  unfold schema?
  rw [htext]
  show (name? _).bind _ = _
  rw [hname]
  rfl

/-- Where no word can start, no schema is read. -/
theorem schema?_eq_none {schema : String} {c : Char} (table condition : String)
    (hfirst : schema.toList.head? = some c) (hc : isLetter c = false) :
    schema? (selectStatement schema table condition) = none := by
  obtain ⟨rest, htext, _, _⟩ := dropPrefix?_selectStatement schema table condition
  obtain ⟨word, hword⟩ := List.head?_eq_some_iff.mp hfirst
  unfold schema?
  rw [htext, hword]
  show (name? (c :: _)).bind _ = none
  rw [name?, hc]
  rfl

end Pushdown.Sql
