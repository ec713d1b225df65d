import Pushdown.Failure
import Pushdown.Settings

/-!
# Errors

What can go wrong while a catalog is built or a request is answered, with the wording and the chain
of causes, outermost first.
-/

namespace Pushdown

/-- What went wrong. -/
inductive Error where
  | settings (cause : SettingsError)
  | connection (cause : Failure)
  | introspection (schema : String) (cause : Failure)
  | query (sql : String) (cause : Failure)
  | unknownTable (name : String)
  | missingQualifier (table column : String)
  deriving DecidableEq, Repr

namespace Error

/-- The wording of an error. -/
def message : Error → String
  | .settings cause => "configuration error: " ++ cause.message
  | .connection cause => "can't connect to DB: " ++ cause.message
  | .introspection schema cause => "error inspecting schema " ++ schema ++ ": " ++ cause.message
  | .query sql cause => "error while making query \"" ++ sql ++ "\": " ++ cause.message
  | .unknownTable name => "table not found: " ++ name
  | .missingQualifier table column =>
    "table " ++ table ++ " requires an equality qualifier on column " ++ column

/-- The wording of what is behind an error, outermost first. -/
def causes : Error → List String
  | .settings cause => cause.chain
  | .connection cause => cause.chain
  | .introspection _ cause => cause.chain
  | .query _ cause => cause.chain
  | .unknownTable _ => []
  | .missingQualifier _ _ => []

/-- The wording of an error and of what is behind it. -/
def chain (e : Error) : List String :=
  e.message :: e.causes

end Error

end Pushdown
