import Pushdown.Proofs.Catalog.Statement
import Pushdown.Proofs.Filter.Grammar

/-!
# Filters that a descriptor provides for

The descriptor of a table lists the columns that may be filtered on and the operators for each. A
filter is held to the list only if its column is on it (`read_eq_ok`). The table of a relation has
every column on its list (`declared_synthesize`), but the raw-query table has a second column that
is not, and what is filtered on there is not looked at when the query is run (`queryText_data`).
Main statement: a filter that is read on a table of a catalog is one that the descriptor provides
for, unless it is on that column, and then the request is the same without it (`read_declared`).
-/

namespace Pushdown.Filter

open Text (isNameChar trim trimStart)

/-- The descriptor of a table provides for a condition: its column is a key column, and that accepts
the operator. -/
def Declared (table : VirtualTable) (q : Qualifier) : Prop :=
  ∃ key ∈ table.keyColumns, key.name = q.column ∧ key.accepts q.operator = true

/-- A condition on the answer of a raw query, which is not there yet when the query is sent. -/
def OnAnswer (table : VirtualTable) (q : Qualifier) : Prop :=
  table.kind = .rawQuery ∧ q.column = VirtualTable.dataColumn

/-! ## What is read -/

variable {table : VirtualTable} {q : Qualifier}

/-- A filter that is read is on a column of the table and has an operator that is not refused. -/
theorem read_eq_ok {filter : String} (h : read table filter = .ok q) :
    (∃ column ∈ table.columns, column.name = q.column) ∧
      accepts table q.column q.operator = true := by
  obtain ⟨_, _, _, _, _, _, hcolumn, _, haccepted, hmeant⟩ := read_eq_ok_iff.mp h
  obtain ⟨hname, rfl⟩ := hmeant.column_operator
  rw [hname]
  exact ⟨⟨_, List.mem_of_find?_eq_some hcolumn, rfl⟩, accepts_iff.mpr haccepted⟩

/-- A value that is not of its type says nothing against the operator. -/
theorem readValue_ne_refused {type : HostType} {s : List Char} {column : String} {op : Operator} :
    readValue type s ≠ .error (.refusedOperator column op) := by
  intro h
  cases type with
  | string | inet | cidr | unknown => cases h
  | bool | int | double | json | timestamp =>
    unfold readValue at h
    dsimp only at h
    split at h <;> cases h

theorem not_accepts_of_qualify {column : VirtualColumn} {op refused : Operator}
    {value : List Char} {name : String}
    (h : qualify table column op value = .error (.refusedOperator name refused)) :
    accepts table name refused = false := by
  unfold qualify at h
  split at h
  · rename_i haccepts
    cases h
    simpa using haccepts
  · split at h
    · split at h <;> cases h
    · split at h
      · cases h
      · cases hvalue : readValue column.hostType value with
        | error e =>
          rw [hvalue] at h
          cases h
          exact absurd hvalue readValue_ne_refused
        | ok literal =>
          rw [hvalue] at h
          cases h

/-- An operator is only refused on a column whose key column does not accept it. -/
theorem not_accepts_of_read {filter name : String} {refused : Operator}
    (h : read table filter = .error (.refusedOperator name refused)) :
    accepts table name refused = false := by
  unfold read at h
  dsimp only at h
  split at h
  · cases h
  · split at h
    · cases h
    · cases hsplit : splitOperator (trimStart ((trim filter.toList).dropWhile isNameChar)) with
      | error e =>
        rw [hsplit] at h
        cases h
        unfold splitOperator at hsplit
        split at hsplit <;> cases hsplit
      | ok split =>
        rw [hsplit] at h
        exact not_accepts_of_qualify h

theorem declared_of_keyColumn {key : KeyColumn} (h : table.keyColumn? q.column = some key)
    (haccepts : accepts table q.column q.operator = true) : Declared table q := by
  refine ⟨key, List.mem_of_find?_eq_some h, ?_, ?_⟩
  · simpa using List.find?_some h
  · unfold accepts at haccepts
    rw [h] at haccepts
    exact haccepts

/-! ## The tables of a catalog -/

/-- Every column that the table of a relation shows is a key column as well. -/
theorem declared_synthesize {r : Relation} {filter : String}
    (h : read (VirtualTable.synthesize r) filter = .ok q) :
    Declared (VirtualTable.synthesize r) q := by
  obtain ⟨⟨column, hmem, hname⟩, haccepts⟩ := read_eq_ok h
  obtain ⟨shown, hshown, rfl⟩ := List.mem_map.mp hmem
  have hkey : ((VirtualTable.synthesize r).keyColumn? q.column).isSome := by
    unfold VirtualTable.keyColumn?
    rw [List.find?_isSome]
    exact ⟨⟨shown.name, Operator.all, .optional⟩, List.mem_map_of_mem hshown, by simpa using hname⟩
  obtain ⟨key, hkey⟩ := Option.isSome_iff_exists.mp hkey
  exact declared_of_keyColumn hkey haccepts

/-- On the raw-query table a filter is provided for unless it is on the answer. -/
theorem declared_rawQuery {name filter : String}
    (h : read (VirtualTable.rawQuery name) filter = .ok q) :
    Declared (VirtualTable.rawQuery name) q ↔ q.column ≠ VirtualTable.dataColumn := by
  obtain ⟨⟨column, hmem, hname⟩, haccepts⟩ := read_eq_ok h
  constructor
  · rintro ⟨key, hkey, hcolumn, _⟩
    obtain rfl := List.mem_singleton.mp hkey
    rw [← hcolumn]
    decide
  · intro hdata
    -- Of the two columns this leaves the one that brings the query along, which is a key column.
    have hquery : q.column = VirtualTable.queryColumn := by
      rcases List.mem_pair.mp hmem with rfl | rfl
      · exact hname.symm
      · exact absurd hname.symm hdata
    have hkey : (VirtualTable.rawQuery name).keyColumn? q.column =
        some ⟨VirtualTable.queryColumn, [.equal], .required⟩ := by
      rw [hquery]
      rfl
    exact declared_of_keyColumn hkey haccepts

/-- A condition on the answer is passed over when the query is looked for. -/
theorem queryText_data (table : VirtualTable) (hdata : q.column = VirtualTable.dataColumn)
    (before after : List Qualifier) :
    Catalog.queryText table (before ++ q :: after) =
      Catalog.queryText table (before ++ after) := by
  have hfind : (before ++ q :: after).find?
        (fun q => q.column = VirtualTable.queryColumn && q.operator = .equal) =
      (before ++ after).find?
        (fun q => q.column = VirtualTable.queryColumn && q.operator = .equal) := by
    rw [List.find?_append, List.find?_append, List.find?_cons_of_neg]
    rw [hdata]
    simp [VirtualTable.dataColumn, VirtualTable.queryColumn]
  unfold Catalog.queryText
  rw [hfind]

/-- A filter that is read on a table of a catalog is one that the descriptor of the table provides
for, unless it is on the answer of a raw query. A condition on that changes nothing wherever it
stands: the statement and the stream are those of the request without it. -/
theorem read_declared {settings : Settings} {environment : Option String} {source : Source}
    {c : Catalog} {calls : List Call} {name filter : String}
    (hbuilt : Catalog.build settings environment source = (.ok c, calls))
    (htable : c.table? name = some table) (hread : read table filter = .ok q) :
    (Declared table q ↔ ¬ OnAnswer table q) ∧
      (OnAnswer table q → ∀ before after,
        c.statement name (before ++ q :: after) = c.statement name (before ++ after) ∧
          c.stream name (before ++ q :: after) = c.stream name (before ++ after)) := by
  obtain ⟨_, _, discovered, _, _, _, rfl, _⟩ := Catalog.build_eq_ok_iff.mp hbuilt
  constructor
  · rcases Catalog.table_of_registered rfl htable with ⟨_, rfl⟩ | ⟨_, r, _, _, rfl⟩
    · rw [declared_rawQuery hread]
      unfold OnAnswer
      rw [not_and]
      exact ⟨fun hdata _ => hdata, fun hdata => hdata rfl⟩
    · refine ⟨fun _ hanswer => ?_, fun _ => declared_synthesize hread⟩
      cases hanswer.1
  · rintro ⟨hkind, hdata⟩ before after
    rw [Catalog.statement_of_table htable, Catalog.statement_of_table htable,
      Catalog.stream_of_table htable, Catalog.stream_of_table htable, hkind]
    dsimp only
    rw [queryText_data table hdata]
    exact ⟨rfl, rfl⟩

/-- A source without relations, where the raw-query table is the only one. -/
def noRelations : Source where
  introspect _ _ := .ok []
  query _ _ := []

/-- Of two filters on the raw-query table the one on the query is provided for, and the other one
makes no difference. -/
theorem read_declared_raw :
    let table := VirtualTable.rawQuery rawQueryName
    ∃ c calls q p,
      Catalog.build { url := some "postgres://db" } none noRelations = (.ok c, calls) ∧
      c.table? rawQueryName = some table ∧
      read table "query = 'select 1'" = .ok q ∧ read table "data is null" = .ok p ∧
      Declared table q ∧ c.statement rawQueryName [q, p] = c.statement rawQueryName [q] := by
  intro table
  let c := Catalog.ofDiscovered { url := some "postgres://db" } "public" "postgres://db"
    noRelations []
  have hbuilt : Catalog.build { url := some "postgres://db" } none noRelations =
      (.ok c, [.introspect "postgres://db" "public"]) := rfl
  have htable : c.table? rawQueryName = some table := rfl
  have hquery : read table "query = 'select 1'" =
      .ok ⟨"query", .equal, some (.string "select 1")⟩ := rfl
  have hdata : read table "data is null" = .ok ⟨"data", .isNull, none⟩ := rfl
  refine ⟨_, _, _, _, hbuilt, htable, hquery, hdata, ?_, ?_⟩
  · refine (read_declared hbuilt htable hquery).1.mpr ?_
    rintro ⟨_, hanswer⟩
    exact absurd hanswer (by decide)
  · exact ((read_declared hbuilt htable hdata).2 ⟨rfl, rfl⟩ [_] []).1

/-- A filter on the answer is read although the descriptor does not provide for it. -/
theorem answer_filtered :
    let table := VirtualTable.rawQuery rawQueryName
    ∃ c calls q,
      Catalog.build { url := some "postgres://db" } none noRelations = (.ok c, calls) ∧
      c.table? rawQueryName = some table ∧
      read table "data is null" = .ok q ∧ ¬ Declared table q := by
  intro table
  refine ⟨_, _, ⟨"data", .isNull, none⟩, rfl, rfl, rfl, ?_⟩
  rintro ⟨key, hkey, hname, _⟩
  obtain rfl := List.mem_singleton.mp hkey
  exact absurd hname (by decide)

end Pushdown.Filter
