import Pushdown.Text.Blank
import Pushdown.Text.Shown

/-!
# Settings of a connection

Settings name the database, the schema to show, the patterns of the tables to show and how quotes
in filters are treated. Every setting may be left out: the address of the database then comes from
the environment, the schema is `public` and every table is shown. The address holds credentials, so
it is never printed.
-/

namespace Pushdown

/-- The settings of a connection. -/
structure Settings where
  url : Option String := none
  schema : Option String := none
  patterns : List String := []
  escapeQuotes : Bool := false
  deriving DecidableEq, Repr, Inhabited

/-- Why a file cannot be read. -/
inductive FileError where
  | notFound
  | denied
  | isDirectory
  | notDirectory
  | notText
  deriving DecidableEq, Repr

/-- The wording of a file error. -/
def FileError.message : FileError → String
  | .notFound => "No such file or directory (os error 2)"
  | .denied => "Permission denied (os error 13)"
  | .isDirectory => "Is a directory (os error 21)"
  | .notDirectory => "Not a directory (os error 20)"
  | .notText => "stream did not contain valid UTF-8"

/-- What is wrong with settings. -/
inductive SettingsError where
  | unreadable (cause : FileError)
  | malformed
  | missingUrl
  | invalidSchema (schema : String)
  deriving DecidableEq, Repr

namespace SettingsError

/-- The wording of what is behind a settings error. -/
def cause? : SettingsError → Option String
  | .unreadable cause => some cause.message
  | .malformed => some "the text is not in the form of settings"
  | _ => none

/-- The wording of a settings error. -/
def message : SettingsError → String
  | .unreadable cause => "IO error: " ++ cause.message
  | .malformed => "YAML parse error: the text is not in the form of settings"
  | .missingUrl => "please provide either the connection_string param or the DATABASE_URL envvar"
  | .invalidSchema schema => "invalid schema name '" ++ schema ++ "'"

/-- The wording of a settings error and of what is behind it. -/
def chain (e : SettingsError) : List String :=
  e.message :: e.cause?.toList

end SettingsError

namespace Settings

/-- The names of the fields in documents. -/
def fieldNames : List String :=
  ["connection_string", "schema", "tables_to_expose", "escape_string_literals"]

/-- The schema that is shown if none is set. -/
def defaultSchema : String := "public"

/-- A text that is there and not empty. -/
def nonEmpty? : Option String → Option String
  | some s => if s.isEmpty then none else some s
  | none => none

/-- The address of the database: the one that is set, or else the one of the environment. -/
def resolvedUrl (s : Settings) (environment : Option String) : Except SettingsError String :=
  match nonEmpty? s.url with
  | some url => .ok url
  | none =>
    match nonEmpty? environment with
    | some url => .ok url
    | none => .error .missingUrl

/-- The name of the schema that is shown. -/
def schemaName (s : Settings) : String :=
  (nonEmpty? s.schema).getD defaultSchema

/-- Whether a schema name may stand in a statement as it is. -/
def isBareName (name : String) : Bool :=
  name.toList.all Text.isNameChar && !(name.toList.headD ' ').isDigit

/-- The name of the schema that is shown, if it may stand in a statement as it is. -/
def checkedSchema (s : Settings) : Except SettingsError String :=
  if isBareName s.schemaName then .ok s.schemaName else .error (.invalidSchema s.schemaName)

/-- The patterns of the tables that are shown. -/
def shownPatterns (s : Settings) : List String :=
  if s.patterns.isEmpty then ["*"] else s.patterns

/-- Texts between brackets. -/
def shownList (texts : List String) : String :=
  "[" ++ ", ".intercalate (texts.map Text.shown) ++ "]"

/-- The settings in full for a log, without the address. -/
def debugText (s : Settings) : String :=
  let url := match s.url with
    | some _ => "Some(\"<redacted>\")"
    | none => "None"
  "ConnectionConfig \x7b connection_string: " ++ url ++
    ", schema: " ++ Text.shown s.schemaName ++
    ", tables_to_expose: " ++ shownList s.shownPatterns ++
    ", escape_string_literals: " ++ (if s.escapeQuotes then "true" else "false") ++ " \x7d"

/-- The settings in brief for a message. -/
def displayText (s : Settings) : String :=
  "ConnectionConfig\x7bschema=" ++ s.schemaName ++ "\x7d"

end Settings

end Pushdown
