import Mathlib
import Pushdown.Json.Writer

/-!
# What compact documents consist of

The items of an array and the fields of an object stand one by one with commas between them
(`writeItems_eq_commas`, `writeFields_eq_commas`). So what holds of the marks of documents and of
the characters of all items or fields holds of all that is written for an array or an object
(`forall_write_array`, `forall_write_object`). What is shown of all documents that way follows from
the parts to the whole (`inductionOnParts`).
-/

namespace Pushdown.Json

/-! ## Commas -/

/-- Pieces with commas between them. -/
def commas (pieces : List (List Char)) : List Char :=
  [','].intercalate pieces

@[simp]
theorem commas_singleton (piece : List Char) : commas [piece] = piece :=
  List.intercalate_singleton

@[simp]
theorem commas_cons_cons (piece next : List Char) (rest : List (List Char)) :
    commas (piece :: next :: rest) = piece ++ ',' :: commas (next :: rest) := by
  simp [commas]

theorem forall_commas {p : Char → Prop} (hcomma : p ',') {pieces : List (List Char)}
    (h : ∀ piece ∈ pieces, ∀ c ∈ piece, p c) : ∀ c ∈ commas pieces, p c := by
  induction pieces with
  | nil =>
    intro c hc
    cases hc
  | cons piece pieces ih =>
    obtain ⟨hpiece, hothers⟩ := List.forall_mem_cons.mp h
    cases pieces with
    | nil => rwa [commas_singleton]
    | cons next pieces =>
      intro c hc
      rw [commas_cons_cons, List.mem_append, List.mem_cons] at hc
      rcases hc with hc | hc | hc
      · exact hpiece c hc
      · rwa [hc]
      · exact ih hothers c hc

/-! ## Items and fields -/

/-- A field as it is written. -/
def writeField (field : String × Json) : List Char :=
  writeString field.1 ++ ':' :: write field.2

theorem writeItems_eq_commas (items : List Json) : writeItems items = commas (items.map write) := by
  induction items with
  | nil => rfl
  | cons item items ih =>
    cases items with
    | nil => exact (commas_singleton _).symm
    | cons next items =>
      rw [writeItems_cons_cons, ih]
      exact (commas_cons_cons _ _ _).symm

theorem writeFields_eq_commas (fields : List (String × Json)) :
    writeFields fields = commas (fields.map writeField) := by
  induction fields with
  | nil => rfl
  | cons field fields ih =>
    cases fields with
    | nil => exact (commas_singleton _).symm
    | cons next fields =>
      show writeField field ++ ',' :: writeFields (next :: fields) = _
      rw [ih]
      exact (commas_cons_cons _ _ _).symm

/-! ## Characters -/

/-- What holds of all marks that stand around and between the parts of documents. -/
def OfMarks (p : Char → Prop) : Prop :=
  ∀ c ∈ ['[', ']', '\x7b', '\x7d', ':', ','], p c

variable {p : Char → Prop}

theorem forall_writeString (hquote : p '"') {text : String}
    (h : ∀ c ∈ text.toList, ∀ written ∈ writeChar c, p written) :
    ∀ written ∈ writeString text, p written := by
  intro written hwritten
  rw [writeString, List.cons_append, List.mem_cons, List.mem_append, List.mem_flatMap,
    List.mem_singleton] at hwritten
  rcases hwritten with hwritten | ⟨c, hc, hwritten⟩ | hwritten
  · rwa [hwritten]
  · exact h c hc written hwritten
  · rwa [hwritten]

theorem forall_write_array (hp : OfMarks p) {items : List Json}
    (h : ∀ item ∈ items, ∀ c ∈ write item, p c) : ∀ c ∈ write (.array items), p c := by
  intro c hc
  rw [write_array, List.mem_cons, List.mem_append, List.mem_singleton, writeItems_eq_commas] at hc
  rcases hc with hc | hc | hc
  · exact hp c (by simp [hc])
  · exact forall_commas (hp ',' (by simp)) (List.forall_mem_map.mpr h) c hc
  · exact hp c (by simp [hc])

theorem forall_write_object (hp : OfMarks p) {fields : List (String × Json)}
    (hkeys : ∀ field ∈ fields, ∀ c ∈ writeString field.1, p c)
    (hvalues : ∀ field ∈ fields, ∀ c ∈ write field.2, p c) :
    ∀ c ∈ write (.object fields), p c := by
  have hfields : ∀ field ∈ fields, ∀ c ∈ writeField field, p c := by
    intro field hfield c hc
    rw [writeField, List.mem_append, List.mem_cons] at hc
    rcases hc with hc | hc | hc
    · exact hkeys field hfield c hc
    · exact hp c (by simp [hc])
    · exact hvalues field hfield c hc
  intro c hc
  rw [write_object, List.mem_cons, List.mem_append, List.mem_singleton, writeFields_eq_commas] at hc
  rcases hc with hc | hc | hc
  · exact hp c (by simp [hc])
  · exact forall_commas (hp ',' (by simp)) (List.forall_mem_map.mpr hfields) c hc
  · exact hp c (by simp [hc])

/-! ## All documents -/

/-- What holds of the documents without parts, of an array if it holds of its items and of an object
if it holds of the values of its fields, holds of every document. -/
@[elab_as_elim]
theorem inductionOnParts {motive : Json → Prop} (null : motive .null)
    (bool : ∀ b, motive (.bool b)) (int : ∀ n, motive (.int n)) (double : ∀ x, motive (.double x))
    (string : ∀ text, motive (.string text))
    (array : ∀ items, (∀ item ∈ items, motive item) → motive (.array items))
    (object : ∀ fields, (∀ field ∈ fields, motive field.2) → motive (.object fields)) :
    ∀ document, motive document
  | .null => null
  | .bool b => bool b
  | .int n => int n
  | .double x => double x
  | .string text => string text
  | .array items =>
    array items fun item _hitem => inductionOnParts null bool int double string array object item
  | .object fields =>
    object fields fun field _hfield =>
      inductionOnParts null bool int double string array object field.2
termination_by document => document
decreasing_by
  · have hsmaller := List.sizeOf_lt_of_mem _hitem
    simp only [Json.array.sizeOf_spec]
    omega
  · have hsmaller := List.sizeOf_lt_of_mem _hfield
    obtain ⟨key, value⟩ := field
    simp only [Json.object.sizeOf_spec, Prod.mk.sizeOf_spec] at hsmaller ⊢
    omega

end Pushdown.Json
