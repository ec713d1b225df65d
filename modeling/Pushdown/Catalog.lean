import Pushdown.Ordered
import Pushdown.Pattern
import Pushdown.Predicate
import Pushdown.Source
import Pushdown.VirtualTable

/-!
# The catalog of a connection

A catalog is built once: the settings are resolved, the schema is introspected, and the relations
that one of the patterns matches become virtual tables. The raw-query table is always there. A
catalog never changes afterwards.
-/

namespace Pushdown

/-- The virtual tables of a catalog under their names. -/
abbrev Tables := List (String × VirtualTable)

/-- The name of the raw-query table. -/
def rawQueryName : String := "raw_query"

/-- Adds the relations that a pattern matches, except where the name is taken. -/
def registerMatches (pattern : Pattern) (discovered : List Relation) (tables : Tables) : Tables :=
  discovered.foldl (fun tables r =>
    if (Ordered.find? r.name tables).isSome || !pattern.accepts r.name then tables
    else Ordered.insert r.name (VirtualTable.synthesize r) tables) tables

/-- Adds the relations that match the pattern a text spells. A text that is no pattern adds none. -/
def registerGlob (discovered : List Relation) (tables : Tables) (glob : String) : Tables :=
  match Pattern.read glob with
  | .ok pattern => registerMatches pattern discovered tables
  | .error _ => tables

/-- The virtual tables of the relations that match one of the patterns, and the raw-query table,
which takes the place of a relation of its name. -/
def registerTables (discovered : List Relation) (globs : List String) : Tables :=
  Ordered.insert rawQueryName (VirtualTable.rawQuery rawQueryName)
    (globs.foldl (registerGlob discovered) [])

/-- The tables of a schema together with the way to their rows. -/
structure Catalog where
  tables : Tables
  schema : String
  url : String
  style : QuoteStyle
  source : Source

namespace Catalog

/-- A result and the calls it took. -/
abbrev Traced (α : Type) := Except Error α × List Call

/-- Builds the catalog of settings at an address. -/
def buildAt (settings : Settings) (url : String) (source : Source) : Traced Catalog :=
  match settings.checkedSchema with
  | .error e => (.error (.settings e), [])
  | .ok schema =>
    let (answer, call) := source.askRelations url schema
    let catalog := answer.map fun discovered =>
      { tables := registerTables discovered settings.shownPatterns
        schema, url, source
        style := if settings.escapeQuotes then .escaped else .verbatim }
    (catalog, [call])

/-- Builds the catalog of settings. The address is resolved first. -/
def build (settings : Settings) (environment : Option String) (source : Source) : Traced Catalog :=
  match settings.resolvedUrl environment with
  | .error e => (.error (.settings e), [])
  | .ok url => buildAt settings url source

/-- The table of a name. -/
def table? (c : Catalog) (name : String) : Option VirtualTable :=
  Ordered.find? name c.tables

/-- The names of the tables in their order. -/
def names (c : Catalog) : List String :=
  c.tables.map Prod.fst

/-- The catalog for a log. -/
def debugText (c : Catalog) : String :=
  "Catalog \x7b schema: " ++ Text.shown c.schema ++ ", tables: " ++ Settings.shownList c.names ++
    ", .. \x7d"

end Catalog

end Pushdown
