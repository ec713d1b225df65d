import Mathlib
import Pushdown.Proofs.Filter.Spelling
import Pushdown.Proofs.Number.Whole
import Pushdown.Proofs.Outcome

/-!
# The grammar of filters

A filter is a name, an operator and a value, with white space between them or not. `Grammar` says
how the text falls into these parts, what the table has to provide for and which value each type of
column is compared with (`Legal`). Main statement: the qualifiers that are read are exactly those of
the grammar, and the operator can as well be looked for by cutting the text at bytes
(`read_iff_grammar`).
-/

namespace Pushdown.Filter

open Text

/-! ## Values -/

/-- A text without the pair of single quotes that it stands between, if there is one. -/
inductive Unquoted : List Char → List Char → Prop
  | quoted (s : List Char) : Unquoted ('\'' :: (s ++ ['\''])) s
  | plain {s : List Char} : (∀ inner, s ≠ '\'' :: (inner ++ ['\''])) → Unquoted s s

/-- The values that a column of a type is compared with, and the literals that they stand for. -/
inductive Legal : HostType → List Char → Literal → Prop
  | string {v s : List Char} : Unquoted v s → Legal .string v (.string (String.ofList s))
  | inet {v s : List Char} : Unquoted v s → Legal .inet v (.inet (String.ofList s))
  | cidr {v s : List Char} : Unquoted v s → Legal .cidr v (.inet (String.ofList s))
  | yes {v : List Char} : lower v = ['t', 'r', 'u', 'e'] ∨ lower v = ['t'] →
      Legal .bool v (.bool true)
  | no {v : List Char} : lower v = ['f', 'a', 'l', 's', 'e'] ∨ lower v = ['f'] →
      Legal .bool v (.bool false)
  | int {v : List Char} {n : Int} : Number.Whole v n → -2 ^ 63 ≤ n → n < 2 ^ 63 →
      Legal .int v (.int (Int64.ofInt n))
  | double {v : List Char} {x : Number.Double} : Number.Double.read v = .ok x →
      Legal .double v (.double x)
  | json {v s : List Char} {document : Json} : Unquoted v s → Json.read s = .ok document →
      Legal .json v (.json document)
  | instant {v s : List Char} {i : Time.Instant} : Unquoted v s → Time.readStrict s = .ok i →
      Legal .timestamp v (.timestamp i)
  | day {v s : List Char} {i : Time.Instant} : Unquoted v s →
      (∀ j, Time.readStrict s ≠ .ok j) → Time.readDay s = .ok i → Legal .timestamp v (.timestamp i)

theorem unquoted_iff {v s : List Char} : Unquoted v s ↔ unquote v = s := by
  constructor
  · intro h
    cases h with
    | quoted =>
      show (if (s ++ ['\'']).getLast? = some '\'' then (s ++ ['\'']).dropLast else _) = s
      rw [List.getLast?_concat, if_pos rfl, List.dropLast_concat]
    | plain hplain =>
      unfold unquote
      split
      · rename_i rest
        split
        · rename_i hlast
          obtain ⟨inner, rfl⟩ := List.getLast?_eq_some_iff.mp hlast
          exact absurd rfl (hplain inner)
        · rfl
      · rfl
  · rintro rfl
    unfold unquote
    split
    · rename_i rest
      split
      · rename_i hlast
        obtain ⟨inner, rfl⟩ := List.getLast?_eq_some_iff.mp hlast
        rw [List.dropLast_concat]
        exact .quoted inner
      · rename_i hlast
        refine .plain fun inner h => hlast ?_
        rw [(List.cons.inj h).2, List.getLast?_concat]
    · rename_i hquote
      exact .plain fun inner h => hquote _ h

theorem boolean?_eq_some_iff {v : List Char} {b : Bool} :
    boolean? v = some b ↔ Legal .bool v (.bool b) := by
  constructor
  · intro h
    unfold boolean? at h
    split at h
    · rename_i hword
      obtain rfl := Option.some.inj h
      exact .yes (.inl (String.ofList_inj.mp hword))
    · rename_i hletter
      obtain rfl := Option.some.inj h
      exact .yes (.inr (String.ofList_inj.mp hletter))
    · rename_i hword
      obtain rfl := Option.some.inj h
      exact .no (.inl (String.ofList_inj.mp hword))
    · rename_i hletter
      obtain rfl := Option.some.inj h
      exact .no (.inr (String.ofList_inj.mp hletter))
    · cases h
  · intro h
    unfold boolean?
    cases h with
    | yes h => rcases h with h | h <;> rw [h] <;> rfl
    | no h => rcases h with h | h <;> rw [h] <;> rfl

/-- An instant is read, or else a day. -/
theorem readInstant_eq_ok_iff {s : List Char} {i : Time.Instant} :
    readInstant s = .ok i ↔ Time.readStrict s = .ok i ∨
      (∀ j, Time.readStrict s ≠ .ok j) ∧ Time.readDay s = .ok i := by
  unfold readInstant
  cases Time.readStrict s with
  | ok j => simp
  | error e => simp

/-- A value that is read is legal. -/
theorem legal_of_readValue {type : HostType} {v : List Char} {literal : Literal}
    (h : readValue type v = .ok literal) : Legal type v literal := by
  have hunquote : Unquoted v (unquote v) := unquoted_iff.mpr rfl
  cases type with
  | string =>
    obtain rfl := Except.ok.inj h
    exact .string hunquote
  | inet =>
    obtain rfl := Except.ok.inj h
    exact .inet hunquote
  | cidr =>
    obtain rfl := Except.ok.inj h
    exact .cidr hunquote
  | bool =>
    simp only [readValue] at h
    split at h
    · rename_i b hb
      obtain rfl := Except.ok.inj h
      exact boolean?_eq_some_iff.mp hb
    · cases h
  | int =>
    simp only [readValue] at h
    split at h
    · rename_i n hn
      obtain rfl := Except.ok.inj h
      obtain ⟨hwhole, hlow, hhigh⟩ := Number.readSigned_eq_ok_iff.mp hn
      exact .int hwhole hlow hhigh
    · cases h
  | double =>
    simp only [readValue] at h
    split at h
    · rename_i x hx
      obtain rfl := Except.ok.inj h
      exact .double hx
    · cases h
  | json =>
    simp only [readValue] at h
    split at h
    · rename_i document hdocument
      obtain rfl := Except.ok.inj h
      exact .json hunquote hdocument
    · cases h
  | timestamp =>
    simp only [readValue] at h
    split at h
    · rename_i i hi
      obtain rfl := Except.ok.inj h
      rcases readInstant_eq_ok_iff.mp hi with hstrict | ⟨hnone, hday⟩
      · exact .instant hunquote hstrict
      · exact .day hunquote hnone hday
    · cases h
  | unknown => cases h

/-- A legal value is read. -/
theorem readValue_of_legal {type : HostType} {v : List Char} {literal : Literal}
    (h : Legal type v literal) : readValue type v = .ok literal := by
  cases h with
  | string hv | inet hv | cidr hv => rw [← unquoted_iff.mp hv]; rfl
  | yes hv => simp only [readValue, boolean?_eq_some_iff.mpr (.yes hv)]
  | no hv => simp only [readValue, boolean?_eq_some_iff.mpr (.no hv)]
  | int hwhole hlow hhigh =>
    have hread : Number.readSigned 64 v = .ok _ :=
      Number.readSigned_eq_ok_iff.mpr ⟨hwhole, hlow, hhigh⟩
    simp only [readValue, hread]
  | double hx => simp only [readValue, hx]
  | json hv hdocument =>
    obtain rfl := unquoted_iff.mp hv
    simp only [readValue, hdocument]
  | instant hv hstrict =>
    obtain rfl := unquoted_iff.mp hv
    simp only [readValue, readInstant_eq_ok_iff.mpr (.inl hstrict)]
  | day hv hnone hday =>
    obtain rfl := unquoted_iff.mp hv
    simp only [readValue, readInstant_eq_ok_iff.mpr (.inr ⟨hnone, hday⟩)]

/-! ## Filters -/

/-- A table lets a column be filtered by an operator, or the column is no key column at all. -/
def Accepted (table : VirtualTable) (column : String) (op : Operator) : Prop :=
  ∀ key, table.keyColumn? column = some key → op ∈ key.operators

/-- The qualifier of a column by an operator and the text behind it. Just the operators that stand
alone have none. -/
inductive Meant (column : VirtualColumn) (op : Operator) : List Char → Qualifier → Prop
  | alone : op.isUnary = true → Meant column op [] ⟨column.name, op, none⟩
  | compared {value : List Char} {literal : Literal} : op.isUnary = false → value ≠ [] →
      Legal column.hostType value literal → Meant column op value ⟨column.name, op, some literal⟩

/-- The filters on a table and the qualifiers that they stand for: the longest name at the start,
white space, the longest spelling of an operator, and a value with white space around it. -/
inductive Grammar (table : VirtualTable) (filter : String) : Qualifier → Prop
  | filter {name gap text rest : List Char} {column : VirtualColumn} {spelling : String}
      {op : Operator} {q : Qualifier} :
      trim filter.toList = name ++ (gap ++ text) →
      (∀ c ∈ name, isNameChar c = true) → Stops isNameChar (gap ++ text) →
      (∀ c ∈ gap, isBlank c = true) → Stops isBlank text →
      name ≠ [] → table.column? (String.ofList name) = some column →
      Longest text spelling op rest → Accepted table column.name op →
      Meant column op (trim rest) q → Grammar table filter q

theorem Meant.column_operator {column : VirtualColumn} {op : Operator} {value : List Char}
    {q : Qualifier} (h : Meant column op value q) : q.column = column.name ∧ q.operator = op := by
  cases h with
  | alone | compared => exact ⟨rfl, rfl⟩

theorem accepts_iff {table : VirtualTable} {column : String} {op : Operator} :
    accepts table column op = true ↔ Accepted table column op := by
  unfold accepts Accepted
  cases table.keyColumn? column with
  | none => simp
  | some key => simp [KeyColumn.accepts]

section Qualifiers

variable {table : VirtualTable} {column : VirtualColumn} {op : Operator} {value : List Char}
  {q : Qualifier}

/-- An operator that stands alone has no text behind it. -/
theorem qualify_unary_iff (haccepts : accepts table column.name op = true)
    (hunary : op.isUnary = true) :
    qualify table column op value = .ok q ↔ Meant column op value q := by
  unfold qualify
  simp only [haccepts, hunary, Bool.not_true, Bool.false_eq_true, if_false, if_true]
  constructor
  · intro h
    split at h
    · rename_i hempty
      obtain rfl := Except.ok.inj h
      obtain rfl := List.isEmpty_iff.mp hempty
      exact .alone hunary
    · cases h
  · intro h
    cases h with
    | alone _ => rfl
    | compared hbinary _ _ =>
      rw [hunary] at hbinary
      cases hbinary

/-- Any other operator has a legal value behind it. -/
theorem qualify_binary_iff (haccepts : accepts table column.name op = true)
    (hbinary : op.isUnary = false) :
    qualify table column op value = .ok q ↔ Meant column op value q := by
  unfold qualify
  simp only [haccepts, hbinary, Bool.not_true, Bool.false_eq_true, if_false]
  constructor
  · intro h
    split at h
    · cases h
    · rename_i hempty
      obtain ⟨literal, hliteral, rfl⟩ := map_eq_ok_iff.mp h
      exact .compared hbinary (by simpa using hempty) (legal_of_readValue hliteral)
  · intro h
    cases h with
    | alone hunary =>
      rw [hbinary] at hunary
      cases hunary
    | compared _ hne hlegal =>
      rw [if_neg (by simpa using hne), readValue_of_legal hlegal]
      rfl

/-- A column and an operator that is accepted make up a qualifier with the text behind them. -/
theorem qualify_eq_ok_iff :
    qualify table column op value = .ok q ↔
      Accepted table column.name op ∧ Meant column op value q := by
  rw [← accepts_iff]
  cases haccepts : accepts table column.name op with
  | false =>
    unfold qualify
    simp [haccepts]
  | true =>
    rw [eq_self, true_and]
    cases hunary : op.isUnary with
    | true => exact qualify_unary_iff haccepts hunary
    | false => exact qualify_binary_iff haccepts hunary

end Qualifiers

/-- The qualifiers that are read are those of the grammar. -/
theorem read_eq_ok_iff {table : VirtualTable} {filter : String} {q : Qualifier} :
    read table filter = .ok q ↔ Grammar table filter q := by
  unfold read
  constructor
  · intro h
    dsimp only at h
    split at h
    · cases h
    · rename_i hname
      split at h
      · cases h
      · rename_i column hcolumn
        obtain ⟨⟨op, value⟩, hsplit, hqualify⟩ := bind_eq_ok_iff.mp h
        obtain ⟨spelling, rest, hlongest, rfl⟩ := splitOperator_eq_ok_iff.mp hsplit
        obtain ⟨haccepted, hmeant⟩ := qualify_eq_ok_iff.mp hqualify
        generalize htrim : trim filter.toList = s at hname hcolumn hlongest
        -- White space is what stands between the name and where the operator starts.
        have hgap : (s.dropWhile isNameChar).takeWhile isBlank ++
            trimStart (s.dropWhile isNameChar) = s.dropWhile isNameChar :=
          List.takeWhile_append_dropWhile
        have htext : trim filter.toList = s.takeWhile isNameChar ++
            ((s.dropWhile isNameChar).takeWhile isBlank ++
              trimStart (s.dropWhile isNameChar)) := by
          rw [htrim, hgap, List.takeWhile_append_dropWhile]
        have hstops : Stops isNameChar ((s.dropWhile isNameChar).takeWhile isBlank ++
            trimStart (s.dropWhile isNameChar)) := by
          rw [hgap]
          exact stops_dropWhile _ _
        exact .filter htext (fun c hc => List.mem_takeWhile_imp hc) hstops
          (fun c hc => List.mem_takeWhile_imp hc) (stops_dropWhile _ _) (by simpa using hname)
          hcolumn hlongest haccepted hmeant
  · rintro ⟨htext, hname, hstops, hgap, htight, hne, hcolumn, hlongest, haccepted, hmeant⟩
    have hstart := dropWhile_append_stops hgap htight
    dsimp only
    rw [htext, takeWhile_append_stops hname hstops, dropWhile_append_stops hname hstops,
      if_neg (by simpa using hne), hcolumn]
    dsimp only
    rw [trimStart, hstart, splitOperator_eq_ok_iff.mpr ⟨_, _, hlongest, rfl⟩]
    exact qualify_eq_ok_iff.mpr ⟨haccepted, hmeant⟩

/-- The qualifiers that are read are those of the grammar, and whether a text starts with a spelling
can be found out by cutting it at a number of bytes, whatever characters it is made of. -/
theorem read_iff_grammar (table : VirtualTable) (filter : String) :
    (∀ q, read table filter = .ok q ↔ Grammar table filter q) ∧
      ∀ p ∈ spellings, ∀ s rest, afterCut? p.1 s = some rest ↔ Spelled p.1 s rest :=
  ⟨fun _ => read_eq_ok_iff, fun p hp _ _ => afterCut?_eq_some_iff (upper_spelling p hp)⟩

/-- The longest of three spellings counts, and a spelling of four letters is not found where the cut
behind four bytes falls into an umlaut. -/
theorem read_iff_grammar_umlaut :
    let table := VirtualTable.synthesize ⟨"users", none, [⟨"name", ⟨.string, "text"⟩, none⟩]⟩
    Grammar table " name!~~*'ä' " ⟨"name", .notCaselessLike, some (.string "ä")⟩ ∧
      ("LIKE", .like) ∈ spellings ∧ ∀ rest, ¬ Spelled "LIKE" ['l', 'i', 'k', 'ä'] rest := by
  intro table
  obtain ⟨hgrammar, hcut⟩ := read_iff_grammar table " name!~~*'ä' "
  have hlisted : ("LIKE", .like) ∈ spellings := by decide
  refine ⟨(hgrammar _).mp rfl, hlisted, ?_⟩
  intro rest hspelled
  have hfound := (hcut _ hlisted ['l', 'i', 'k', 'ä'] rest).mpr hspelled
  have hnone : afterCut? "LIKE" ['l', 'i', 'k', 'ä'] = none := by decide +kernel
  rw [hnone] at hfound
  cases hfound

end Pushdown.Filter
