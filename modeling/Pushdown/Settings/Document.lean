import Pushdown.Schema.Document
import Pushdown.Settings

/-!
# Settings as documents

The document of settings has their fields in the order of their declaration, without those that are
not set. When a document is read, every field may be missing.
-/

namespace Pushdown.Settings

/-- The field of a text, if there is one. -/
def textField (name : String) : Option String → List (String × Json)
  | some text => [(name, .string text)]
  | none => []

/-- The document of settings. What is not set is left out. -/
def toJson (s : Settings) : Json :=
  .object (textField "connection_string" s.url ++ textField "schema" s.schema ++
    (if s.patterns.isEmpty then [] else [("tables_to_expose", .array (s.patterns.map .string))]) ++
    [("escape_string_literals", .bool s.escapeQuotes)])

/-- Reads the document of settings. -/
def ofJson? (document : Json) : Option Settings := do
  match ← document.parts? fieldNames with
  | [url, schema, patterns, escapeQuotes] =>
    let patterns ← (patterns.getD (.array [])).items?
    return {
      url := ← (url.getD .null).optionalText?
      schema := ← (schema.getD .null).optionalText?
      patterns := ← patterns.mapM Json.text?
      escapeQuotes := ← (escapeQuotes.getD (.bool false)).bool? }
  | _ => none

end Pushdown.Settings
