import Pushdown.Proofs.Catalog.Statement
import Pushdown.Proofs.Sql.Name

/-!
# The table that is read

The names of relations stand in statements as they were discovered, without quotes. Main statement:
in a schema whose name is folded, the statement for a relation reads that relation just if its name
is folded too, whatever the qualifiers are. Where there are capitals in its name, the relation of
the name in small letters is read in its place (`statement_reads`).
-/

namespace Pushdown.Catalog

variable {c : Catalog} {table : String}

/-- In a catalog that was built for a schema whose name is folded, a dynamic table is that of a
relation that was discovered there. Its statement reads the table of exactly this name if the name
is folded, and not otherwise: a word with capitals is read in small letters. -/
theorem statement_reads {settings : Settings} {environment : Option String} {source : Source}
    {calls : List Call} {vt : VirtualTable}
    (hbuilt : build settings environment source = (.ok c, calls))
    (hschema : Sql.isFolded c.schema.toList = true) (htable : c.table? table = some vt)
    (hkind : vt.kind = .dynamic) (quals : List Qualifier) :
    ∃ discovered, source.introspect c.url c.schema = .ok discovered ∧
      ∃ r ∈ discovered, r.name = table ∧ ∃ sql, c.statement table quals = .ok sql ∧
        (Sql.fromClause? sql = some (c.schema, r.name) ↔ Sql.isFolded r.name.toList = true) ∧
        (Sql.isWord r.name.toList = true →
          Sql.fromClause? sql = some (c.schema, String.ofList (Text.lower r.name.toList))) := by
  obtain ⟨url, schema, discovered, _, _, hdiscovered, rfl, _⟩ := build_eq_ok_iff.mp hbuilt
  rcases table_of_registered rfl htable with ⟨_, rfl⟩ | ⟨_, r, hr, hname, rfl⟩
  · cases hkind
  · let c := ofDiscovered settings schema url source discovered
    have hstatement : c.statement table quals =
        .ok (c.tableStatement (VirtualTable.synthesize r) quals) :=
      statement_of_table htable
    have hread : Sql.isWord r.name.toList = true →
        Sql.fromClause? (c.tableStatement (VirtualTable.synthesize r) quals) =
          some (schema, String.ofList (Text.lower r.name.toList)) := by
      intro hr
      obtain ⟨hschemaName, hsame⟩ := Sql.isFolded_iff.mp hschema
      have hclause := Sql.fromClause?_selectStatement (c.style.render quals) hschemaName hr
      rw [hsame, String.ofList_toList] at hclause
      exact hclause
    refine ⟨discovered, hdiscovered, r, hr, hname, _, hstatement, ⟨Sql.fromClause?_folded, ?_⟩,
      hread⟩
    -- A folded name is a word, and its small form is the name itself.
    intro hfolded
    obtain ⟨hr, hsame⟩ := Sql.isFolded_iff.mp hfolded
    have hexact := hread hr
    rw [hsame, String.ofList_toList] at hexact
    exact hexact

/-- A source of two relations whose names are told apart by capitals alone. -/
def capitals : Source where
  introspect _ _ := .ok [⟨"Users", none, []⟩, ⟨"users", none, []⟩]
  query _ _ := []

/-- A name without capitals is read as it is, with a filter or without. -/
theorem statement_reads_users :
    ∃ c calls vt sql,
      build { url := some "postgres://db" } none capitals = (.ok c, calls) ∧
      Sql.isFolded c.schema.toList = true ∧ c.table? "users" = some vt ∧ vt.kind = .dynamic ∧
      c.statement "users" [⟨"id", .equal, some (.int 1)⟩] = .ok sql ∧
      Sql.fromClause? sql = some ("public", "users") := by
  refine ⟨_, _, _, _, rfl, by decide, rfl, rfl, rfl, ?_⟩
  obtain ⟨_, _, r, _, hname, sql, hsql, hexact, _⟩ := @statement_reads _ "users"
    { url := some "postgres://db" } none capitals _ _ rfl (by decide) rfl rfl
    [⟨"id", .equal, some (.int 1)⟩]
  cases hsql
  rw [hname] at hexact
  exact hexact.mpr (by decide)

/-- The statement for a relation with a capital in its name reads another one that is there too. -/
theorem capitals_mistaken :
    ∃ c calls sql,
      build { url := some "postgres://db" } none capitals = (.ok c, calls) ∧
      c.names = ["Users", rawQueryName, "users"] ∧
      Sql.isFolded c.schema.toList = true ∧
      (∃ vt, c.table? "Users" = some vt ∧ vt.kind = .dynamic) ∧
      c.statement "Users" [] = .ok sql ∧
      Sql.fromClause? sql = some (c.schema, "users") := by
  refine ⟨_, _, _, rfl, by decide +kernel, by decide, ⟨_, rfl, rfl⟩, rfl, by decide +kernel⟩

end Pushdown.Catalog
