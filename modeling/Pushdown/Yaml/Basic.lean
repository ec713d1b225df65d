/-!
# YAML documents

A document is a scalar, a list or a map. What a scalar means is left to whoever asks for it: any
scalar has a text, and only one without quotes can stand for nothing or for a truth value.
-/

namespace Pushdown

/-- A YAML document. -/
inductive Yaml where
  /-- a scalar without quotes -/
  | plain (text : String)
  /-- a scalar between quotes of either kind -/
  | quoted (text : String)
  | list (items : List Yaml)
  | map (entries : List (Yaml × Yaml))
  deriving Inhabited, Repr

namespace Yaml

/-- The document of a place where none is written. -/
def empty : Yaml :=
  .plain ""

/-- The text of a scalar. -/
def text? : Yaml → Option String
  | .plain text => some text
  | .quoted text => some text
  | _ => none

/-- Whether a document stands for nothing. -/
def isNull : Yaml → Bool
  | .plain text => ["", "~", "null", "Null", "NULL"].contains text
  | _ => false

/-- The truth value that a scalar without quotes stands for. -/
def bool? : Yaml → Option Bool
  | .plain text =>
    if ["true", "True", "TRUE"].contains text then some true
    else if ["false", "False", "FALSE"].contains text then some false
    else none
  | _ => none

/-- The text of a scalar that may also stand for nothing. -/
def optionalText? (document : Yaml) : Option (Option String) :=
  if document.isNull then some none else document.text?.map some

end Yaml

end Pushdown
