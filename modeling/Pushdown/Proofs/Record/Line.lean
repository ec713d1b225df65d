import Mathlib
import Pushdown.Proofs.Json.Compact
import Pushdown.Record

/-!
# Lines of records

A record is written on a line as its fields between braces, with commas between them. Main
statements: a record of named values with different names has exactly these fields
(`fields_ofList`), and its line shows them one by one (`shows_line`).
-/

namespace Pushdown

open Json (commas write writeField writeString)

/-- A name and the text of a document, as they stand in a line. -/
def entryText (entry : String × List Char) : List Char :=
  writeString entry.1 ++ ':' :: entry.2

/-- A line shows entries: it has them between braces, with commas between them. -/
def Shows (line : String) (entries : List (String × List Char)) : Prop :=
  line.toList = '\x7b' :: commas (entries.map entryText) ++ ['\x7d']

namespace Record

/-- What a line shows of a field. -/
def entry (field : String × Value) : String × List Char :=
  (field.1, write field.2.toJson)

/-- The line of a record shows its fields in their order. -/
theorem shows_line (r : Record) : Shows r.line (r.fields.map entry) := by
  have hentries : (r.fields.map entry).map entryText =
      r.documents.map writeField := by
    rw [documents, List.map_map, List.map_map]
    rfl
  rw [Shows, line, Json.compact, String.toList_ofList, hentries, ← Json.writeFields_eq_commas]
  rfl

/-! ## Different names -/

theorem insertField_of_notMem {name : String} {value : Value} {fields : List (String × Value)}
    (h : name ∉ fields.map Prod.fst) :
    insertField name value fields = fields ++ [(name, value)] := by
  induction fields with
  | nil => rfl
  | cons field rest ih =>
    rw [List.map_cons, List.mem_cons, not_or] at h
    rw [insertField, if_neg (Ne.symm h.1), ih h.2]
    rfl

/-- Fields with different names are all kept, each where it was inserted. -/
theorem fields_ofList {fields : List (String × Value)} (h : (fields.map Prod.fst).Nodup) :
    (ofList fields).fields = fields := by
  suffices hfold : ∀ (front : Record), (front.fields.map Prod.fst ++ fields.map Prod.fst).Nodup →
      (fields.foldl (fun r field => r.insert field.1 field.2) front).fields =
        front.fields ++ fields from hfold empty h
  induction fields with
  | nil => exact fun front _ => (List.append_nil _).symm
  | cons field rest ih =>
    obtain ⟨name, value⟩ := field
    intro front hfront
    have hname : name ∉ front.fields.map Prod.fst := by
      intro hmem
      exact (List.nodup_append.mp hfront).2.2 name hmem name List.mem_cons_self rfl
    have hinsert : (front.insert name value).fields = front.fields ++ [(name, value)] :=
      insertField_of_notMem hname
    rw [List.foldl_cons, ih (List.nodup_cons.mp h).2, hinsert, List.append_assoc]
    · rfl
    · rw [hinsert]
      simpa using hfront

end Record

end Pushdown
