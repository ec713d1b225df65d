import Pushdown.Catalog.Request
import Pushdown.Command.Arguments
import Pushdown.Command.Printer
import Pushdown.Command.Report
import Pushdown.Filter
import Pushdown.Json.Writer
import Pushdown.Settings.Reader
import Pushdown.VirtualTable.Document

/-!
# Commands

A command loads the settings, builds the catalog and then lists tables, describes one, lists rows,
shows the SQL of a listing or forwards a query. What it prints before it fails stays printed. A
failure is a chain of texts, outermost first.
-/

namespace Pushdown.Command

/-- What a command comes to. -/
structure Outcome where
  /-- what it prints -/
  output : String := ""
  /-- the chain of texts of its failure, if it fails -/
  failure : Option (List String) := none
  /-- the calls it makes to the source -/
  calls : List Call := []
  deriving Inhabited

namespace Outcome

/-- A command that prints one line. -/
def ofLine (line : String) : Outcome :=
  { output := line ++ "\n" }

/-- A command that fails. -/
def fail (chain : List String) : Outcome :=
  { failure := some chain }

/-- The exit code: zero for success and one for a failure. -/
def exitCode (o : Outcome) : Nat :=
  if o.failure.isSome then 1 else 0

/-- What is reported beside the output. -/
def errorText (o : Outcome) : String :=
  match o.failure with
  | some chain => report chain
  | none => ""

/-- The statements that are sent to the source. -/
def statements (o : Outcome) : List String :=
  o.calls.filterMap fun
    | .query _ sql => some sql
    | .introspect _ _ => none

end Outcome

/-! ## Settings -/

/-- Settings under options: what an option gives takes the place of what was set. -/
def Options.apply (o : Options) (s : Settings) : Settings where
  url := o.url <|> s.url
  schema := o.schema <|> s.schema
  patterns := if o.patterns.isEmpty then s.patterns else o.patterns
  escapeQuotes := s.escapeQuotes

/-- Files by their paths. -/
abbrev Files := String → Except FileError String

/-- Reads the settings of a file. -/
def readSettings (files : Files) (path : String) : Except SettingsError Settings :=
  match files path with
  | .error e => .error (.unreadable e)
  | .ok text => Settings.read text

/-- The settings of options: those of the file they name, if they name one, under the options. -/
def loadSettings (files : Files) (o : Options) : Except (List String) Settings :=
  match o.config with
  | none => .ok (o.apply {})
  | some path =>
    match readSettings files path with
    | .ok s => .ok (o.apply s)
    | .error e => .error (("Failed to load configuration from " ++ Text.shownPath path) :: e.chain)

/-! ## Actions -/

/-- The failure of a command on a table that is not shown. -/
def notExposed (table : String) : List String :=
  ["Table '" ++ table ++ "' is not exposed"]

/-- A table in one line: its name, how many columns it has, the columns a request must give and its
description. -/
def summary (table : VirtualTable) : String :=
  let required := (table.keyColumns.filter (·.require = .required)).map (·.name)
  "  " ++ table.name ++ " (" ++ String.ofList (Number.digits table.columns.length) ++ " columns)" ++
    (if required.isEmpty then "" else " requires: " ++ ", ".intercalate required) ++
    (if table.description.isEmpty then "" else " - " ++ table.description)

/-- Lists the tables of a catalog. -/
def listTables (c : Catalog) : Outcome :=
  let lines := c.tables.map fun (_, table) => summary table ++ "\n"
  { output := "Tables in schema '" ++ c.schema ++ "':\n" ++ "".intercalate lines }

/-- Describes a table. -/
def describeTable (c : Catalog) (table : String) : Outcome :=
  match c.table? table with
  | none => .fail (notExposed table)
  | some vt => .ofLine vt.toJson.indented

/-- The qualifiers of filters on a table. -/
def qualifiers (c : Catalog) (table : String) (filters : List String) :
    Except (List String) (List Qualifier) :=
  match c.table? table with
  | none => .error (notExposed table)
  | some vt => (Filter.readAll vt filters).mapError (·.chain)

/-- Prints the rows of a table as they come in. A row is looked at even if the limit is zero. -/
def listRows (c : Catalog) (table : String) (filters : List String) (limit : Option Nat) :
    Outcome :=
  match qualifiers c table filters with
  | .error chain => .fail chain
  | .ok quals =>
    let (listing, calls) := c.list table quals (wantsMore limit)
    { output := printed limit listing.pushed
      failure := listing.failure.map (·.chain)
      calls }

/-- Shows the statement of a listing. -/
def showSql (c : Catalog) (table : String) (filters : List String) : Outcome :=
  match qualifiers c table filters with
  | .error chain => .fail chain
  | .ok quals =>
    match c.statement table quals with
    | .error e => .fail e.chain
    | .ok sql => .ofLine sql

/-- The answer to a query in the record of the raw-query table. -/
def answer? (rows : List Record) : Option Json :=
  (rows.getLast?.bind (·.get? VirtualTable.dataColumn)).map (·.toJson)

/-- Forwards a query and prints its answer. -/
def forward (c : Catalog) (query : String) : Outcome :=
  let quals := [⟨VirtualTable.queryColumn, .equal, some (.string query)⟩]
  let (listing, calls) := c.list rawQueryName quals fun _ => false
  match listing.failure, answer? listing.pushed with
  | some e, _ => { Outcome.fail e.chain with calls }
  | none, none => { Outcome.fail ["Raw query returned no result"] with calls }
  | none, some answer => { Outcome.ofLine answer.indented with calls }

/-- What an action on a catalog comes to. -/
def Action.perform (c : Catalog) : Action → Outcome
  | .tables => listTables c
  | .describe table => describeTable c table
  | .list table filters limit => listRows c table filters limit
  | .sql table filters => showSql c table filters
  | .raw query => forward c query

/-- Builds the catalog of settings and performs an action on it. -/
def runWith (source : Source) (environment : Option String) (settings : Settings)
    (action : Action) : Outcome :=
  match Catalog.build settings environment source with
  | (.error e, calls) => { Outcome.fail ("failed to build table catalog" :: e.chain) with calls }
  | (.ok catalog, calls) =>
    let outcome := action.perform catalog
    { outcome with calls := calls ++ outcome.calls }

/-- The line that tells the version. -/
def versionLine : String := "vista 0.1.0"

/-- The file of settings that an invocation names. -/
def Invocation.config? : Invocation → Option String
  | .version => none
  | .run options _ => options.config

/-- The address of the database that an invocation is about, if there is one. -/
def Invocation.address? (files : Files) (environment : Option String) : Invocation → Option String
  | .version => none
  | .run options _ => do
    let settings ← (loadSettings files options).toOption
    (settings.resolvedUrl environment).toOption

/-- What an invocation comes to. -/
def Invocation.perform (files : Files) (source : Source) (environment : Option String) :
    Invocation → Outcome
  | .version => .ofLine versionLine
  | .run options action =>
    match loadSettings files options with
    | .error chain => .fail chain
    | .ok settings => runWith source environment settings action

variable {files : Files} {options : Options}

theorem perform_of_settings {settings : Settings} (h : loadSettings files options = .ok settings)
    (source : Source) (environment : Option String) (action : Action) :
    (Invocation.run options action).perform files source environment =
      runWith source environment settings action := by
  unfold Invocation.perform
  dsimp only
  rw [h]

end Pushdown.Command
