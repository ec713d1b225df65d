import Pushdown.Value

/-!
# Result rows

A record is one row: named values in the order of the columns. Main statements: `get?_insert` says
what a record holds after an insertion, and `columns_insert` that an insertion keeps the columns in
the order of their first insertion.
-/

namespace Pushdown

/-- One row of a result. -/
structure Record where
  fields : List (String × Value)
  deriving Inhabited

namespace Record

/-- The record without fields. -/
def empty : Record := ⟨[]⟩

/-- Puts a value under a name: in place of the value that was there, or else at the end. -/
def insertField (name : String) (value : Value) : List (String × Value) → List (String × Value)
  | [] => [(name, value)]
  | (n, v) :: rest => if n = name then (n, value) :: rest else (n, v) :: insertField name value rest

/-- Puts a value under a name. -/
def insert (r : Record) (name : String) (value : Value) : Record :=
  ⟨insertField name value r.fields⟩

/-- The record of named values, inserted one after the other. -/
def ofList (fields : List (String × Value)) : Record :=
  fields.foldl (fun r field => r.insert field.1 field.2) empty

/-- The value under a name. -/
def get? (r : Record) (name : String) : Option Value :=
  (r.fields.find? fun field => field.1 = name).map Prod.snd

/-- The number of fields. -/
def size (r : Record) : Nat :=
  r.fields.length

/-- The names of the fields in their order. -/
def columns (r : Record) : List String :=
  r.fields.map Prod.fst

/-- The fields as documents, in their order. -/
def documents (r : Record) : List (String × Json) :=
  r.fields.map fun field => (field.1, field.2.toJson)

/-- The record as an object with sorted names. -/
def toJson (r : Record) : Json :=
  .ofFields r.documents

/-- The record as an object whose fields stand in their order. -/
def line (r : Record) : String :=
  (Json.object r.documents).compact

/-- Equality of records: the same names in the same order with the same values. -/
def same (a b : Record) : Bool :=
  sameFields a.fields b.fields
where
  sameFields : List (String × Value) → List (String × Value) → Bool
    | [], [] => true
    | (n, v) :: as, (m, w) :: bs => n == m && v.same w && sameFields as bs
    | _, _ => false

theorem get?_insert (r : Record) (name : String) (value : Value) (n : String) :
    (r.insert name value).get? n = if n = name then some value else r.get? n := by
  obtain ⟨fields⟩ := r
  simp only [get?, insert]
  induction fields with
  | nil => by_cases h : name = n <;> grind [insertField]
  | cons field rest ih =>
    obtain ⟨m, v⟩ := field
    simp only [insertField]
    split
    · subst m; by_cases h : name = n <;> grind
    · by_cases h : m = n <;> grind

theorem columns_insert (r : Record) (name : String) (value : Value) :
    (r.insert name value).columns =
      if name ∈ r.columns then r.columns else r.columns ++ [name] := by
  obtain ⟨fields⟩ := r
  simp only [columns, insert]
  induction fields with
  | nil => simp [insertField]
  | cons field rest ih =>
    obtain ⟨m, v⟩ := field
    simp only [insertField]
    split
    · subst m; simp
    · simp only [List.map_cons, ih]; grind

end Record

end Pushdown
