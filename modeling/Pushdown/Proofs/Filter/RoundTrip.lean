import Mathlib
import Pushdown.Filter
import Pushdown.Predicate
import Pushdown.Proofs.Json.RoundTrip
import Pushdown.Proofs.Text.Span
import Pushdown.Proofs.Time.RoundTrip

/-!
# Filters and their SQL

The SQL of a condition in the verbatim style is itself a filter. A filter is taken apart again in
the order it was put together: the name ends at the first space, the operator is split off whatever
the value looks like (`splitOperator_sql`), and the value reads back by its type
(`readValue_literal`). Main statement: on the table of a relation, a condition on one of its columns
reads back as itself (`read_render`).
-/

namespace Pushdown.Filter

open Text

/-! ## Conditions that can be read -/

/-- The literals that a column of a host type is compared with. Documents have no doubles and nest
no deeper than is read; instants are whole seconds of the years 0 to 9999. -/
inductive Typed : HostType → Literal → Prop
  | string (s : String) : Typed .string (.string s)
  | inet (s : String) : Typed .inet (.inet s)
  | cidr (s : String) : Typed .cidr (.inet s)
  | bool (b : Bool) : Typed .bool (.bool b)
  | int (n : Int64) : Typed .int (.int n)
  | json {document : Json} : Json.Exact Json.deepest document → Typed .json (.json document)
  | timestamp {i : Time.Instant} : i.IsWhole → 0 ≤ i.date.year → i.date.year ≤ 9999 →
      Typed .timestamp (.timestamp i)

/-- The conditions on a column: a unary operator alone, or another operator with a literal that the
column is compared with. -/
inductive Condition (column : VirtualColumn) : Qualifier → Prop
  | unary {op : Operator} : op.isUnary = true → Condition column ⟨column.name, op, none⟩
  | binary {op : Operator} {value : Literal} : op.isUnary = false → Typed column.hostType value →
      Condition column ⟨column.name, op, some value⟩

/-! ## Values -/

/-- A text that has no white space at either end and is not empty. -/
structure Tight (s : List Char) : Prop where
  ne_nil : s ≠ []
  first : Stops isBlank s
  last : Stops isBlank s.reverse

theorem Tight.trim {s : List Char} (h : Tight s) : trim s = s :=
  trim_eq_self h.first h.last

/-- A text is tight if its first and its last character are no white space. -/
theorem tight_ends {first last : Char} (s : List Char) (hfirst : isBlank first = false)
    (hlast : isBlank last = false) : Tight (first :: (s ++ [last])) := by
  refine ⟨List.cons_ne_nil _ _, stops_cons _ hfirst, ?_⟩
  rw [List.reverse_cons, List.reverse_append]
  exact stops_cons _ hlast

theorem tight_of_forall {s : List Char} (hne : s ≠ []) (h : ∀ c ∈ s, isBlank c = false) :
    Tight s := by
  refine ⟨hne, ?_, ?_⟩
  · intro c hc
    exact h c (List.mem_of_mem_head? hc)
  · intro c hc
    exact h c (List.mem_reverse.mp (List.mem_of_mem_head? hc))

/-- Two tight texts keep their outer ends, whatever is between them. -/
theorem Tight.between {s t : List Char} (hs : Tight s) (between : List Char) (ht : Tight t) :
    Tight (s ++ (between ++ t)) := by
  refine ⟨by simp [hs.ne_nil], stops_append _ hs.ne_nil hs.first, ?_⟩
  rw [List.reverse_append, List.reverse_append, List.append_assoc]
  exact stops_append _ (by simpa using ht.ne_nil) ht.last

theorem Tight.append {s t : List Char} (hs : Tight s) (ht : Tight t) : Tight (s ++ ' ' :: t) :=
  hs.between [' '] ht

/-- White space of at least one character. -/
structure Gap (s : List Char) : Prop where
  ne_nil : s ≠ []
  blank : ∀ c ∈ s, isBlank c = true

theorem gap_space : Gap [' '] :=
  ⟨List.cons_ne_nil _ _, List.forall_mem_singleton.mpr rfl⟩

theorem unquote_quote (s : List Char) : unquote (QuoteStyle.verbatim.quote s) = s := by
  -- Only the outer pair is looked for, so quotes at the ends of the text itself do no harm.
  show (if (s ++ ['\'']).getLast? = some '\'' then (s ++ ['\'']).dropLast else _) = s
  rw [List.getLast?_concat, if_pos rfl, List.dropLast_concat]

theorem unquote_text (s : String) :
    String.ofList (unquote (QuoteStyle.verbatim.quote s.toList)) = s := by
  rw [unquote_quote, String.ofList_toList]

theorem tight_digits (n : Nat) : Tight (Number.digits n) :=
  tight_of_forall (Number.digits_ne_nil n) fun c hc =>
    Number.isBlank_of_isDigit (Number.isDigit_of_mem_digits c hc)

theorem tight_ofInt (n : Int) : Tight (Number.ofInt n) := by
  have hdigits := tight_digits n.natAbs
  unfold Number.ofInt
  split
  · refine ⟨List.cons_ne_nil _ _, stops_cons _ rfl, ?_⟩
    rw [List.reverse_cons]
    apply stops_append _ _ hdigits.last
    simpa using hdigits.ne_nil
  · exact hdigits

/-- The SQL of a literal keeps clear of the white space around it. -/
theorem Typed.tight {type : HostType} {value : Literal} (h : Typed type value) :
    Tight (QuoteStyle.verbatim.literal value) := by
  cases h with
  | string s => exact tight_ends _ rfl rfl
  | inet s => exact tight_ends _ rfl rfl
  | cidr s => exact tight_ends _ rfl rfl
  | bool b =>
    cases b with
    | true => exact tight_ends ['r', 'u'] rfl rfl
    | false => exact tight_ends ['a', 'l', 's'] rfl rfl
  | int n => exact tight_ofInt _
  | json _ => exact tight_ends _ rfl rfl
  | timestamp _ _ _ => exact tight_ends _ rfl rfl

/-- The SQL of a literal reads back by the type of the column. -/
theorem readValue_literal {type : HostType} {value : Literal} (h : Typed type value) :
    readValue type (QuoteStyle.verbatim.literal value) = .ok value := by
  cases h with
  | string s => exact congrArg (fun text => Except.ok (Literal.string text)) (unquote_text s)
  | inet s => exact congrArg (fun text => Except.ok (Literal.inet text)) (unquote_text s)
  | cidr s => exact congrArg (fun text => Except.ok (Literal.inet text)) (unquote_text s)
  | bool b => cases b <;> rfl
  | int n =>
    have hlow : -(Number.twoPow 63 : Int) ≤ n.toInt := n.le_toInt
    have hhigh : n.toInt < Number.twoPow 63 := n.toInt_lt
    have hread : Number.readSigned 64 (Number.ofInt n.toInt) = .ok n.toInt :=
      Number.readSigned_ofInt hlow hhigh
    unfold readValue QuoteStyle.literal
    simp only [hread, Int64.ofInt_toInt]
  | @json document hexact =>
    unfold readValue QuoteStyle.literal
    simp only [unquote_quote, Json.read_write hexact]
  | @timestamp i hwhole hfirst hlast =>
    unfold readValue QuoteStyle.literal readInstant
    simp only [unquote_quote, Time.readStrict_writeSeconds hwhole hfirst hlast]

/-! ## Operators -/

/-- An operator that stands alone is split off. -/
theorem splitOperator_alone (op : Operator) : splitOperator op.sql.toList = .ok (op, []) := by
  cases op <;> rfl

/-- An operator with a space behind it is split off. Of two spellings of which one starts with the
other only the right one ends at the space. -/
theorem splitOperator_sql (op : Operator) (value : List Char) :
    splitOperator (op.sql.toList ++ ' ' :: value) = .ok (op, trim value) := by
  cases op <;> rfl

/-- The SQL of an operator keeps clear of the white space around it. -/
theorem tight_sql (op : Operator) : Tight op.sql.toList := by
  cases op <;> exact ⟨by decide, stops_cons _ rfl, stops_cons _ rfl⟩

/-! ## Tables of relations -/

/-- Under names that are all different each column is the first of its name. -/
theorem column?_of_mem {table : VirtualTable} (hnames : (table.columns.map (·.name)).Nodup)
    {column : VirtualColumn} (h : column ∈ table.columns) :
    table.column? column.name = some column := by
  unfold VirtualTable.column?
  generalize table.columns = columns at h hnames
  induction columns with
  | nil => cases h
  | cons first rest ih =>
    rw [List.map_cons, List.nodup_cons] at hnames
    obtain ⟨hfirst, hrest⟩ := hnames
    rcases List.mem_cons.mp h with rfl | hmem
    · rw [List.find?_cons_of_pos (by simp)]
    · have hne : first.name ≠ column.name := by
        intro heq
        exact hfirst (heq ▸ List.mem_map_of_mem hmem)
      rw [List.find?_cons_of_neg (by simpa using hne)]
      exact ih hmem hrest

/-- The columns of a relation may be filtered by every operator. -/
theorem accepts_synthesize (r : Relation) (column : String) (op : Operator) :
    accepts (VirtualTable.synthesize r) column op = true := by
  unfold accepts
  cases hkey : (VirtualTable.synthesize r).keyColumn? column with
  | none => rfl
  | some key =>
    obtain ⟨c, _, rfl⟩ := List.mem_map.mp (List.mem_of_find?_eq_some hkey)
    cases op <;> rfl

/-! ## Reading a condition -/

/-- The characters of names are ASCII, but for the dollar sign from the digits to the letters. -/
theorem isBlank_of_isNameChar {c : Char} (h : isNameChar c = true) : isBlank c = false := by
  have hrange : c.toNat = 36 ∨ 48 ≤ c.toNat ∧ c.toNat ≤ 122 := by
    unfold isNameChar isWordChar at h
    rw [Bool.or_eq_true, Bool.or_eq_true, beq_iff_eq, beq_iff_eq] at h
    rcases h with (h | rfl) | rfl
    · simp only [Char.isAlphanum, Char.isAlpha, Char.isUpper, Char.isLower, Char.isDigit, ge_iff_le,
        Char.reduceVal, UInt32.le_iff_toNat_le, UInt32.reduceToNat, Char.toNat_val,
        Bool.or_eq_true, Bool.and_eq_true, decide_eq_true_eq] at h
      omega
    · exact .inr (by decide)
    · exact .inl rfl
  unfold isBlank
  simp only [Bool.or_eq_false_iff, Bool.and_eq_false_iff, decide_eq_false_iff_not,
    beq_eq_false_iff_ne]
  omega

/-- White space is no part of a name. -/
theorem Gap.stops {gap : List Char} (h : Gap gap) (rest : List Char) :
    Stops isNameChar (gap ++ rest) := by
  refine stops_append rest h.ne_nil fun c hc => ?_
  have hblank := h.blank c (List.mem_of_mem_head? hc)
  cases hname : isNameChar c with
  | false => rfl
  | true =>
    rw [isBlank_of_isNameChar hname] at hblank
    cases hblank

theorem tight_name {name : String} (hne : name ≠ "") (hname : name.toList.all isNameChar = true) :
    Tight name.toList := by
  rw [List.all_eq_true] at hname
  exact tight_of_forall (by simpa using hne) fun c hc => isBlank_of_isNameChar (hname c hc)

/-- The name of a column and the condition behind it are told apart. -/
theorem read_name {table : VirtualTable} {column : VirtualColumn}
    (hcolumn : table.column? column.name = some column) (hne : column.name ≠ "")
    (hname : column.name.toList.all isNameChar = true) {gap rest : List Char} (hgap : Gap gap)
    (hrest : Tight rest) :
    read table (String.ofList (column.name.toList ++ (gap ++ rest))) =
      (splitOperator rest).bind fun split => qualify table column split.1 split.2 := by
  -- Trimming takes nothing off, since the name and what follows it are tight.
  have htrim : trim (String.ofList (column.name.toList ++ (gap ++ rest))).toList =
      column.name.toList ++ (gap ++ rest) := by
    rw [String.toList_ofList]
    exact ((tight_name hne hname).between gap hrest).trim
  rw [List.all_eq_true] at hname
  have hend : Stops isNameChar (gap ++ rest) := hgap.stops rest
  have hstart : trimStart (gap ++ rest) = rest := dropWhile_append_stops hgap.blank hrest.first
  unfold read
  simp only [htrim, takeWhile_append_stops hname hend, dropWhile_append_stops hname hend,
    String.ofList_toList, hcolumn, hstart]
  rw [if_neg (by simpa using hne)]
  rfl

/-- A condition on a column of a relation reads back as itself from its SQL in the verbatim
style. -/
theorem read_render {r : Relation} {column : VirtualColumn} {q : Qualifier}
    (hnames : ((VirtualTable.synthesize r).columns.map (·.name)).Nodup)
    (hcolumn : column ∈ (VirtualTable.synthesize r).columns) (hne : column.name ≠ "")
    (hname : column.name.toList.all isNameChar = true) (hq : Condition column q) :
    read (VirtualTable.synthesize r) (QuoteStyle.verbatim.render [q]) = .ok q := by
  have hfound := column?_of_mem hnames hcolumn
  cases hq with
  | @unary op hunary =>
    have hrender : QuoteStyle.verbatim.render [⟨column.name, op, none⟩] =
        String.ofList (column.name.toList ++ ([' '] ++ op.sql.toList)) :=
      congrArg String.ofList (List.append_nil _)
    rw [hrender, read_name hfound hne hname gap_space (tight_sql op), splitOperator_alone]
    show qualify _ column op [] = _
    unfold qualify
    simp [accepts_synthesize, hunary]
  | @binary op value hbinary htyped =>
    have hvalue := htyped.tight
    have hrest : Tight (op.sql.toList ++ ' ' :: QuoteStyle.verbatim.literal value) :=
      (tight_sql op).append hvalue
    have hrender : QuoteStyle.verbatim.render [⟨column.name, op, some value⟩] =
        String.ofList (column.name.toList ++
          ([' '] ++ (op.sql.toList ++ ' ' :: QuoteStyle.verbatim.literal value))) :=
      congrArg String.ofList (List.append_assoc _ _ _)
    rw [hrender, read_name hfound hne hname gap_space hrest, splitOperator_sql, hvalue.trim]
    show qualify _ column op (QuoteStyle.verbatim.literal value) = _
    unfold qualify
    simp [accepts_synthesize, hbinary, hvalue.ne_nil, readValue_literal htyped, Except.map]

/-- A document with quotes, an operator and a comma inside, for a name with a dollar sign. -/
theorem read_document :
    read (VirtualTable.synthesize ⟨"orders", none,
        [⟨"note", ⟨.string, "text"⟩, none⟩, ⟨"meta$1", ⟨.json, "jsonb"⟩, none⟩]⟩)
      (QuoteStyle.verbatim.render [⟨"meta$1", .notLike,
        some (.json (.object [("it's", .array [.int (-5), .string "' <= \",\\\n"])]))⟩]) =
    .ok ⟨"meta$1", .notLike,
      some (.json (.object [("it's", .array [.int (-5), .string "' <= \",\\\n"])]))⟩ := by
  have hexact : Json.Exact Json.deepest
      (.object [("it's", .array [.int (-5), .string "' <= \",\\\n"])]) := by
    refine .object (List.pairwise_singleton _ _) ?_
    simp only [List.forall_mem_singleton]
    refine .array ?_
    simp only [List.forall_mem_cons]
    exact ⟨.int ⟨by decide, by decide⟩, .string _, List.forall_mem_nil _⟩
  exact @read_render _ ⟨"meta$1", .json, ""⟩ _ (by decide) (by decide) (by decide) (by decide)
    (.binary rfl (.json hexact))

end Pushdown.Filter
