import Pushdown.Settings
import Pushdown.Yaml.Reader

/-!
# Reading settings

Settings are written as a YAML map. A field that the map lacks is not set, a field that nobody knows
is passed over and a field that stands there twice is refused. An empty text sets nothing.
-/

namespace Pushdown.Settings

/-- The patterns that a document lists. A place where nothing is written lists none. -/
def patterns? : Yaml → Option (List String)
  | .list items => items.mapM Yaml.text?
  | .plain text => if text.isEmpty then some [] else none
  | _ => none

/-- Sets the field of a name. -/
def set? (s : Settings) (name : String) (value : Yaml) : Option Settings :=
  match name with
  | "connection_string" => value.optionalText?.map fun url => { s with url }
  | "schema" => value.optionalText?.map fun schema => { s with schema }
  | "tables_to_expose" => (patterns? value).map fun patterns => { s with patterns }
  | "escape_string_literals" => value.bool?.map fun escapeQuotes => { s with escapeQuotes }
  | _ => some s

/-- Sets the fields of entries, of which those under the names in `taken` have been set before. -/
def setAll? (s : Settings) (taken : List String) : List (Yaml × Yaml) → Option Settings
  | [] => some s
  | (key, value) :: rest => do
    let name ← key.text?
    if taken.contains name then none
    else
      let taken := if fieldNames.contains name then name :: taken else taken
      setAll? (← s.set? name value) taken rest

/-- The settings that a document spells. The empty document sets nothing. -/
def ofYaml? : Yaml → Option Settings
  | .map entries => setAll? {} [] entries
  | .plain text => if text.isEmpty then some {} else none
  | _ => none

/-- Reads settings. -/
def read (text : String) : Except SettingsError Settings :=
  match (Yaml.read text.toList).bind ofYaml? with
  | some settings => .ok settings
  | none => .error .malformed

end Pushdown.Settings
