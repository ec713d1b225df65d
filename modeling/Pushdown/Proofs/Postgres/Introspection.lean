import Mathlib
import Pushdown.Postgres.Introspection
import Pushdown.Proofs.Outcome

/-!
# What introspection makes of the answers

The relations of a schema are put together from two lists of catalog rows. `Server.faults` lists all
that can be wrong with the answers, in the order in which it is come upon: the questions first, then
the cells of the column rows, also of rows whose table is not listed, and then those of the table
rows. Each reader stops with the first of its faults (`Finds`). Main statement: introspection fails
with the first fault, and without faults it gives one relation for each table row, with the columns
of the rows of its name in their order (`introspect_faults`).
-/

namespace Pushdown.Postgres

/-! ## Readers that stop with a fault -/

/-- A reader stops with the first of some faults. If there are none, it reads something that has a
property. -/
def Finds {ε α : Type} (faults : List ε) (read : Except ε α) (holds : α → Prop) : Prop :=
  match faults with
  | [] => ∃ x, read = .ok x ∧ holds x
  | e :: _ => read = .error e

section Finds

variable {ε α β : Type} {faults first rest : List ε} {read : Except ε α} {holds : α → Prop}

theorem finds_ok {x : α} (h : holds x) : Finds [] (.ok x : Except ε α) holds :=
  ⟨x, rfl, h⟩

theorem Finds.imp {other : α → Prop} (h : Finds faults read holds)
    (himp : ∀ x, holds x → other x) : Finds faults read other := by
  cases faults with
  | nil =>
    obtain ⟨x, hx, hholds⟩ := h
    exact ⟨x, hx, himp x hholds⟩
  | cons e faults => exact h

/-- Of two readers one after the other, the faults of the second one count if the first has none. -/
theorem Finds.bind {next : α → Except ε β} {then_holds : β → Prop} (h : Finds first read holds)
    (hnext : ∀ x, holds x → Finds rest (next x) then_holds) :
    Finds (first ++ rest) (read >>= next) then_holds := by
  cases first with
  | nil =>
    obtain ⟨x, rfl, hx⟩ := h
    exact hnext x hx
  | cons e first =>
    obtain rfl : read = .error e := h
    rfl

/-- What has been read may be put into another form. -/
theorem Finds.map {f : α → β} {then_holds : β → Prop} (h : Finds faults read holds)
    (hf : ∀ x, holds x → then_holds (f x)) :
    Finds faults (read >>= fun x => .ok (f x)) then_holds := by
  rw [← List.append_nil faults]
  exact h.bind fun x hx => finds_ok (hf x hx)

/-- A list is read up to the first fault of its items. -/
theorem finds_mapM {faults : α → List ε} {read : α → Except ε β} {holds : α → β → Prop}
    (h : ∀ a, Finds (faults a) (read a) (holds a)) (as : List α) :
    Finds (as.flatMap faults) (as.mapM read) (List.Forall₂ holds as) := by
  induction as with
  | nil => exact finds_ok .nil
  | cons a as ih =>
    rw [List.flatMap_cons, List.mapM_cons]
    exact (h a).bind fun b hb => ih.map fun bs hbs => .cons hb hbs

end Finds

/-! ## Faults of the answers -/

/-- The fault of a catalog cell that must not be empty. -/
def emptyCell (column : String) : Cell → List Failure
  | some _ => []
  | none => [.missing column]

/-- The faults of a column row. A column may do without a default and without a comment. -/
def ColumnRow.faults (row : ColumnRow) : List Failure :=
  [emptyCell "table_name" row.tableName, emptyCell "column_name" row.columnName,
    emptyCell "raw_type" row.rawType, emptyCell "type_name" row.typeName,
    emptyCell "type_kind" row.typeKind, emptyCell "type_category" row.typeCategory,
    emptyCell "identity" row.identity].flatten

/-- The faults of a table row. -/
def TableRow.faults (row : TableRow) : List Failure :=
  emptyCell "table_name" row.name

/-- The fault of a question that failed. -/
def unanswered (message : Option String) : List Failure :=
  (message.map .database).toList

/-- The fault of a schema that does not exist. -/
def Server.noSchema (s : Server) (schema : String) : List Failure :=
  if s.hasSchema schema then [] else [.told ("schema \"" ++ schema ++ "\" does not exist")]

/-- All faults of what a server says about a schema, in the order in which they are come upon. -/
def Server.faults (s : Server) (schema : String) : List Failure :=
  [unanswered s.schemaFailure, s.noSchema schema, unanswered s.tablesFailure,
    unanswered s.columnsFailure, s.columns.flatMap ColumnRow.faults,
    s.tables.flatMap TableRow.faults].flatten

/-! ## What rows show -/

/-- A column row shows a column. -/
structure ColumnRow.Shows (row : ColumnRow) (column : Column) : Prop where
  name : row.columnName = some column.name
  raw : row.rawType = some column.type.raw
  native : ∃ facts : TypeFacts, row.typeName = some facts.typeName ∧
    row.typeKind = some facts.typeKind ∧ row.typeCategory = some facts.typeCategory ∧
    row.default = facts.default ∧ row.identity = some facts.identity ∧
    column.type.native = classify facts
  comment : row.comment = column.comment

/-- Among column rows, a table row shows a relation with the columns of its name in their order. -/
structure TableRow.Shows (columns : List ColumnRow) (row : TableRow) (relation : Relation) :
    Prop where
  name : row.name = some relation.name
  comment : row.comment = relation.comment
  columns : List.Forall₂ ColumnRow.Shows (columns.filter (·.tableName = row.name)) relation.columns

/-! ## Rows -/

theorem finds_required (column : String) (cell : Cell) :
    Finds (emptyCell column cell) (required column cell) (cell = some ·) := by
  cases cell with
  | none => rfl
  | some text => exact finds_ok rfl

theorem finds_answered (message : Option String) :
    Finds (unanswered message) (answered message) fun _ => True := by
  cases message with
  | none => exact finds_ok trivial
  | some text => rfl

/-- A column row is read as its column, together with the name of the table. -/
theorem ColumnRow.finds_read (row : ColumnRow) :
    Finds row.faults row.read fun p => row.tableName = some p.1 ∧ row.Shows p.2 := by
  unfold ColumnRow.faults ColumnRow.read
  simp only [List.flatten_cons]
  refine (finds_required _ _).bind fun tableName htable => ?_
  refine (finds_required _ _).bind fun name hname => ?_
  refine (finds_required _ _).bind fun raw hraw => ?_
  refine (finds_required _ _).bind fun typeName htypeName => ?_
  refine (finds_required _ _).bind fun typeKind htypeKind => ?_
  refine (finds_required _ _).bind fun typeCategory htypeCategory => ?_
  refine (finds_required _ _).bind fun identity hidentity => ?_
  exact finds_ok ⟨htable, hname, hraw,
    ⟨⟨typeName, typeKind, typeCategory, row.default, identity⟩, htypeName, htypeKind,
      htypeCategory, rfl, hidentity, rfl⟩, rfl⟩

/-- The columns of a name are those of the rows of that name. -/
theorem shows_columnsOf {rows : List ColumnRow} {columns : List (String × Column)} (name : String)
    (h : List.Forall₂ (fun row p => row.tableName = some p.1 ∧ row.Shows p.2) rows columns) :
    List.Forall₂ ColumnRow.Shows (rows.filter (·.tableName = some name))
      (columnsOf name columns) := by
  have hkept := List.rel_filter (p := (·.tableName = some name)) (q := (·.1 = name)) ?_ h
  · rw [columnsOf, List.forall₂_map_right_iff]
    exact hkept.imp fun _ _ hrow => hrow.2
  · rintro row p ⟨htable, -⟩
    simp [htable]

/-! ## Tables -/

/-- A table row takes the columns of its name. -/
structure TableRow.Takes (columns : List (String × Column)) (row : TableRow)
    (relation : Relation) : Prop where
  name : row.name = some relation.name
  comment : row.comment = relation.comment
  columns : columnsOf relation.name columns = relation.columns

/-- The columns of a name are still there when those of another name have been taken. -/
theorem columnsOf_columnsBeside {name other : String} (h : name ≠ other)
    (columns : List (String × Column)) :
    columnsOf name (columnsBeside other columns) = columnsOf name columns := by
  unfold columnsOf columnsBeside
  rw [List.filter_filter]
  congr 1
  refine List.filter_congr fun p _ => ?_
  by_cases hp : p.1 = name
  · simp [hp, h]
  · simp [hp]

/-- Rows of other names take the same columns when those of a name have been taken before. -/
theorem takes_of_beside {name : String} {columns : List (String × Column)} {rows : List TableRow}
    {relations : List Relation} (hother : some name ∉ rows.map TableRow.name)
    (h : List.Forall₂ (TableRow.Takes (columnsBeside name columns)) rows relations) :
    List.Forall₂ (TableRow.Takes columns) rows relations := by
  induction h with
  | nil => exact .nil
  | @cons row relation rows relations hrow _ ih =>
    rw [List.map_cons, List.mem_cons, not_or] at hother
    obtain ⟨hname, hcomment, hcolumns⟩ := hrow
    have hne : relation.name ≠ name := by
      rintro rfl
      exact hother.1 hname.symm
    rw [columnsOf_columnsBeside hne] at hcolumns
    exact .cons ⟨hname, hcomment, hcolumns⟩ (ih hother.2)

/-- Table rows of different names are read one by one, each with all the columns of its name. -/
theorem finds_readTables (columns : List (String × Column)) (rows : List TableRow) :
    Finds (rows.flatMap TableRow.faults) (readTables columns rows) fun relations =>
      (rows.map TableRow.name).Nodup → List.Forall₂ (TableRow.Takes columns) rows relations := by
  induction rows generalizing columns with
  | nil => exact finds_ok fun _ => .nil
  | cons row rows ih =>
    rw [List.flatMap_cons, readTables]
    refine (finds_required _ _).bind fun name hname => (ih _).map ?_
    intro relations htaken hdistinct
    rw [List.map_cons, List.nodup_cons, hname] at hdistinct
    -- The columns that the first row takes away are of no name behind it.
    exact .cons ⟨hname, rfl, rfl⟩ (takes_of_beside hdistinct.1 (htaken hdistinct.2))

/-- Table rows show the relations that take the columns of the column rows. -/
theorem shows_of_takes {rows : List ColumnRow} {columns : List (String × Column)} {row : TableRow}
    {relation : Relation}
    (h : List.Forall₂ (fun row p => row.tableName = some p.1 ∧ row.Shows p.2) rows columns)
    (htakes : row.Takes columns relation) : row.Shows rows relation := by
  obtain ⟨hname, hcomment, hcolumns⟩ := htakes
  refine ⟨hname, hcomment, ?_⟩
  rw [hname, ← hcolumns]
  exact shows_columnsOf relation.name h

/-! ## The schema -/

theorem finds_readSchema (s : Server) (schema : String) :
    Finds (s.faults schema) (s.readSchema schema) fun relations =>
      (s.tables.map TableRow.name).Nodup →
        List.Forall₂ (TableRow.Shows s.columns) s.tables relations := by
  unfold Server.faults Server.readSchema Server.noSchema
  simp only [List.flatten_cons, List.flatten_nil, List.append_nil]
  refine (finds_answered _).bind fun _ _ => ?_
  cases s.hasSchema schema with
  | false => rfl
  | true =>
    -- All columns are read before the first table is, so their faults come first.
    refine (finds_answered _).bind fun _ _ => (finds_answered _).bind fun _ _ => ?_
    refine (finds_mapM ColumnRow.finds_read s.columns).bind fun columns hcolumns => ?_
    refine (finds_readTables columns s.tables).imp fun relations htaken hdistinct => ?_
    exact (htaken hdistinct).imp fun _ _ => shows_of_takes hcolumns

/-- Introspection of a schema fails with the first fault of the answers, and then there are no
relations at all. If there are no faults and no two tables have the same name, there is a relation
for each table row, in their order. Its columns are those of the column rows of its name, in their
order, and the rows of tables that are not listed are left out. -/
theorem introspect_faults {s : Server} (schema : String) (hin : s.refusal = none) :
    (∀ fault, (s.faults schema).head? = some fault →
      s.introspect schema = .error (.introspection schema fault)) ∧
    (s.faults schema = [] → (s.tables.map TableRow.name).Nodup →
      ∃ relations, s.introspect schema = .ok relations ∧
        List.Forall₂ (TableRow.Shows s.columns) s.tables relations) := by
  have hfinds := finds_readSchema s schema
  unfold Server.introspect
  rw [hin]
  cases hfaults : s.faults schema with
  | nil =>
    rw [hfaults] at hfinds
    obtain ⟨relations, hread, hshows⟩ := hfinds
    refine ⟨nofun, fun _ hdistinct => ⟨relations, ?_, hshows hdistinct⟩⟩
    exact mapError_eq_ok_iff.mpr hread
  | cons fault faults =>
    rw [hfaults] at hfinds
    have hread : s.readSchema schema = .error fault := hfinds
    refine ⟨?_, nofun⟩
    intro first hfirst
    obtain rfl : fault = first := Option.some.inj hfirst
    dsimp only
    rw [hread]
    rfl

/-- A catalog with two tables, whose columns come in turns with those of one that is not listed. -/
def shop (identity : Cell) : Server where
  refusal := none
  hasSchema schema := schema = "public"
  tables := [⟨some "orders", some "what was bought"⟩, ⟨some "users", none⟩]
  columns :=
    [⟨some "users", some "id", some "integer", some "int4", some "b", some "N",
        some "nextval('users_id_seq')", some "", none⟩,
      ⟨some "orders", some "id", some "integer", some "int4", some "b", some "N", none, some "a",
        none⟩,
      ⟨some "views", some "n", some "integer", some "int4", some "b", some "N", none, identity,
        none⟩,
      ⟨some "users", some "name", some "text", some "text", some "b", some "S", none, some "",
        some "as it is shown"⟩]
  schemaFailure := none
  tablesFailure := none
  columnsFailure := none
  watchFailure := none
  result _ := []

/-- The columns of users stay together, and an empty cell counts in a row of no table as well, but
only if the schema exists. -/
theorem introspect_faults_shop :
    (∃ relations, (shop (some "")).introspect "public" = .ok relations ∧
      relations.map (fun r => (r.name, r.columns.length)) = [("orders", 1), ("users", 2)]) ∧
    (shop none).introspect "public" = .error (.introspection "public" (.missing "identity")) ∧
    (shop none).introspect "private" =
      .error (.introspection "private" (.told "schema \"private\" does not exist")) := by
  refine ⟨?_, (introspect_faults "public" rfl).1 _ rfl, (introspect_faults "private" rfl).1 _ rfl⟩
  obtain ⟨relations, hread, hshows⟩ :=
    (@introspect_faults (shop (some "")) "public" rfl).2 rfl (by decide)
  refine ⟨relations, hread, ?_⟩
  cases hshows with
  | cons horders hrest =>
    cases hrest with
    | cons husers hnone =>
      cases hnone
      have hone : 1 = _ := horders.columns.length_eq
      have htwo : 2 = _ := husers.columns.length_eq
      rw [List.map_cons, List.map_singleton, ← Option.some.inj horders.name,
        ← Option.some.inj husers.name, ← hone, ← htwo]

end Pushdown.Postgres
