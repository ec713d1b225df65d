import Pushdown.Json.Basic
import Pushdown.Schema.Relation

/-!
# Discovered tables as documents

Relations are exchanged as JSON. A structure is an object of its fields, of which unknown ones are
passed over, or the array of its fields in their order. A choice without a parameter is its name or
an object that has null under the name; one with a parameter is an object of one field.
-/

namespace Pushdown

namespace Json

/-- The text of a document that is a string. -/
def text? : Json → Option String
  | .string s => some s
  | _ => none

/-- The truth value of a document that is one. -/
def bool? : Json → Option Bool
  | .bool b => some b
  | _ => none

/-- The items of a document that is an array. -/
def items? : Json → Option (List Json)
  | .array items => some items
  | _ => none

/-- The text of a document that may also be null. -/
def optionalText? : Json → Option (Option String)
  | .null => some none
  | .string s => some (some s)
  | _ => none

/-- The parts of a structure by the names of its fields, missing ones as `none`. -/
def parts? (names : List String) : Json → Option (List (Option Json))
  | .object fields => some (names.map (Ordered.find? · fields))
  | .array items =>
    if items.length ≤ names.length then
      some (items.map some ++ List.replicate (names.length - items.length) none)
    else none
  | _ => none

/-- The name of a choice and its parameter, if it has one. -/
def choice? : Json → Option (String × Option Json)
  | .string name => some (name, none)
  | .object [(name, parameter)] => some (name, some parameter)
  | _ => none

/-- A choice without a parameter. -/
def plainChoice? (choices : List (String × α)) (name : String) (parameter : Option Json) :
    Option α :=
  match parameter with
  | none => choices.lookup name
  | some .null => choices.lookup name
  | some _ => none

end Json

namespace NetworkKind

/-- The document of a network kind. -/
def toJson : NetworkKind → Json
  | .host => .string "host"
  | .block => .string "block"
  | .other typeName => .object [("other", .string typeName)]

/-- Reads the document of a network kind. -/
def ofJson? (document : Json) : Option NetworkKind := do
  let (name, parameter) ← document.choice?
  if name = "other" then
    let typeName ← parameter
    return .other (← typeName.text?)
  else Json.plainChoice? [("host", .host), ("block", .block)] name parameter

end NetworkKind

namespace NativeType

/-- The name of a type in documents. -/
def name (t : NativeType) : String :=
  match plainNames.find? (·.2 = t) with
  | some (name, _) => name
  | none => "network"

/-- The document of a type. -/
def toJson : NativeType → Json
  | .network kind => .object [("network", kind.toJson)]
  | t => .string t.name

/-- Reads the document of a type. -/
def ofJson? (document : Json) : Option NativeType := do
  let (name, parameter) ← document.choice?
  if name = "network" then
    let kind ← parameter
    return .network (← NetworkKind.ofJson? kind)
  else Json.plainChoice? plainNames name parameter

end NativeType

/-- The document of a column type. -/
def ColumnType.toJson (t : ColumnType) : Json :=
  .object [("native", t.native.toJson), ("raw", .string t.raw)]

/-- Reads the document of a column type. -/
def ColumnType.ofJson? (document : Json) : Option ColumnType := do
  match ← document.parts? ["native", "raw"] with
  | [some native, some raw] => return ⟨← NativeType.ofJson? native, ← raw.text?⟩
  | _ => none

/-- The field of a comment, if there is one. -/
def commentField : Option String → List (String × Json)
  | some comment => [("comment", .string comment)]
  | none => []

/-- The document of a column. -/
def Column.toJson (c : Column) : Json :=
  .object ([("name", .string c.name), ("column_type", c.type.toJson)] ++ commentField c.comment)

/-- Reads the document of a column. -/
def Column.ofJson? (document : Json) : Option Column := do
  match ← document.parts? ["name", "column_type", "comment"] with
  | [some name, some type, comment] =>
    return ⟨← name.text?, ← ColumnType.ofJson? type, ← (comment.getD .null).optionalText?⟩
  | _ => none

/-- The document of a relation. -/
def Relation.toJson (r : Relation) : Json :=
  .object ([("name", .string r.name)] ++ commentField r.comment ++
    [("columns", .array (r.columns.map Column.toJson))])

/-- Reads the document of a relation. -/
def Relation.ofJson? (document : Json) : Option Relation := do
  match ← document.parts? ["name", "comment", "columns"] with
  | [some name, comment, columns] =>
    let columns ← (columns.getD (.array [])).items?
    return ⟨← name.text?, ← (comment.getD .null).optionalText?, ← columns.mapM Column.ofJson?⟩
  | _ => none

end Pushdown
