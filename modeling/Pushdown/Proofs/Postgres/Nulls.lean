import Mathlib
import Pushdown.Proofs.Json.Null
import Pushdown.Proofs.Json.Number
import Pushdown.Proofs.Outcome
import Pushdown.Proofs.Postgres.Rows
import Pushdown.Proofs.Record.Line

/-!
# Nulls of printed rows

A line is to show null for a column just if the server sent an empty cell, or a document that is
null. There is one exception: a number that is not finite has no form in documents, so it is shown
as null too. Main statement: the line of a row shows null exactly for the empty cells, the null
documents and the numbers that are not finite (`null_shown_iff`).
-/

namespace Pushdown.Postgres

open Json (nullText write write_eq_null_iff)
open Number (Double)

/-- A cell that is null: one that is empty, or a document that is null. -/
inductive IsNull (oid : Nat) : Cell → Prop
  | empty : IsNull oid none
  | document {text : String} :
      oid = 114 ∨ oid = 3802 → Json.read text.toList = .ok .null → IsNull oid (some text)

/-- A cell that holds a number which is not finite. -/
def Unbounded (oid : Nat) (cell : Cell) : Prop :=
  ∃ x : Double, readCell oid cell = .ok (.float x) ∧ x.isFinite = false

/-! ## One cell -/

/-- The values that are written as null. -/
theorem write_toJson_iff (value : Value) :
    write value.toJson = nullText ↔
      value = .null ∨ (∃ x : Double, value = .float x ∧ x.isFinite = false) ∨
        ∃ document, value = .json document ∧ write document = nullText := by
  cases value with
  | null => simp [Value.toJson, write_eq_null_iff]
  | bool b => simp [Value.toJson, write_eq_null_iff]
  | int n => simp [Value.toJson, write_eq_null_iff]
  | float x =>
    cases hfinite : x.isFinite with
    | true => simp [Value.toJson, Json.ofDouble, write_eq_null_iff, hfinite]
    | false => simp [Value.toJson, Json.ofDouble, write_eq_null_iff, hfinite]
  | string s => simp [Value.toJson, write_eq_null_iff]
  | bytes data => simp [Value.toJson, write_eq_null_iff]
  | json document => simp [Value.toJson]
  | timestamp i => simp [Value.toJson, write_eq_null_iff]

theorem ofOid_eq_json_iff (oid : Nat) : CellType.ofOid oid = .json ↔ oid = 114 ∨ oid = 3802 := by
  constructor
  · intro h
    unfold CellType.ofOid at h
    split at h
    -- only the two kinds of documents are left
    all_goals cases h
    · exact .inl rfl
    · exact .inr rfl
  · rintro (rfl | rfl)
    · rfl
    · rfl

/-- A value that is no document and not null. -/
def Plain (value : Value) : Prop :=
  value ≠ .null ∧ ∀ document, value ≠ .json document

theorem plain_string (text : String) : Plain (.string text) := ⟨nofun, nofun⟩

theorem plain_instantOrText (text : String) (instant : Except Time.ReadError Time.Instant) :
    Plain (instantOrText text instant) := by
  cases instant with
  | error e => exact plain_string text
  | ok i => exact ⟨nofun, nofun⟩

theorem plain_temporalOrText (type : CellType) (text : String) :
    Plain (temporalOrText type text) := by
  unfold temporalOrText
  split
  · exact plain_instantOrText text _
  · exact plain_instantOrText text _
  · exact plain_instantOrText text _
  · exact plain_string text

theorem plain_numberOrText (text : String) : Plain (numberOrText text) := by
  unfold numberOrText
  split
  · exact ⟨nofun, nofun⟩
  · split
    · exact ⟨nofun, nofun⟩
    · exact ⟨nofun, nofun⟩

/-- A text is read as a document in a column of documents, and else never as one or as null. -/
theorem readText_eq_ok {type : CellType} {text : String} {value : Value}
    (h : readText type text = .ok value) :
    (type = .json ∧ ∃ document, Json.read text.toList = .ok document ∧ value = .json document) ∨
      type ≠ .json ∧ Plain value := by
  cases type with
  | json =>
    simp only [readText, map_eq_ok_iff, mapError_eq_ok_iff] at h
    obtain ⟨document, hread, rfl⟩ := h
    exact .inl ⟨rfl, document, hread, rfl⟩
  | int bits =>
    refine .inr ⟨nofun, ?_⟩
    simp only [readText] at h
    split at h
    · rw [← Except.ok.inj h]
      exact ⟨nofun, nofun⟩
    · cases h
  | number =>
    refine .inr ⟨nofun, ?_⟩
    rw [← Except.ok.inj h]
    exact plain_numberOrText text
  | date | timestamp | zonedTimestamp =>
    refine .inr ⟨nofun, ?_⟩
    rw [← Except.ok.inj h]
    exact plain_temporalOrText _ text
  | text =>
    refine .inr ⟨nofun, ?_⟩
    rw [← Except.ok.inj h]
    exact ⟨nofun, nofun⟩
  | bool | bytes | single | double =>
    refine .inr ⟨nofun, ?_⟩
    simp only [readText, map_eq_ok_iff] at h
    obtain ⟨_, _, rfl⟩ := h
    exact ⟨nofun, nofun⟩

/-- The documents that are read have no infinite numbers, so only null is written as null. -/
theorem write_eq_null_of_read {text : String} {document : Json}
    (h : Json.read text.toList = .ok document) : write document = nullText ↔ document = .null := by
  rw [write_eq_null_iff, or_iff_left]
  rintro ⟨x, rfl, hx⟩
  rw [Json.isFinite_of_read h] at hx
  cases hx

/-- The value of a cell is written as null if the cell is null or holds no finite number. -/
theorem write_readCell_iff {oid : Nat} {cell : Cell} {value : Value}
    (h : readCell oid cell = .ok value) :
    write value.toJson = nullText ↔ IsNull oid cell ∨ Unbounded oid cell := by
  have hunbounded : Unbounded oid cell ↔ ∃ x : Double, value = .float x ∧ x.isFinite = false := by
    simp only [Unbounded, h, Except.ok.injEq]
  rw [write_toJson_iff, hunbounded]
  cases cell with
  | none =>
    obtain rfl : Value.null = value := Except.ok.inj h
    exact ⟨fun _ => .inl .empty, fun _ => .inl rfl⟩
  | some text =>
    rcases readText_eq_ok h with ⟨htype, document, hread, rfl⟩ | ⟨htype, hnull, hdocument⟩
    · have hnull : IsNull oid (some text) ↔ document = .null := by
        constructor
        · intro hcell
          cases hcell with
          | document _ hother => exact Except.ok.inj (hread.symm.trans hother)
        · rintro rfl
          exact .document ((ofOid_eq_json_iff oid).mp htype) hread
      simp [hnull, write_eq_null_of_read hread]
    · have hcell : ¬ IsNull oid (some text) := by
        intro hcell
        cases hcell with
        | document hoid _ => exact htype ((ofOid_eq_json_iff oid).mpr hoid)
      simp [hnull, hdocument, hcell]

/-! ## One row -/

theorem nodup_names {names : List String} {values : List Value} (h : names.Nodup) :
    ((names.zip values).map Prod.fst).Nodup := by
  have hsub : ((names.zip values).map Prod.fst).Sublist names := by
    rw [List.zip_eq_zip_take_min, List.map_fst_zip (by simp)]
    exact List.take_sublist _ _
  exact h.sublist hsub

/-- The value at a place was read from the cell at that place, under the type of its column. -/
theorem value_of_cell {columns : List (String × Nat)} {cells : List Cell} {values : List Value}
    (hvalues : Values columns cells values) {i oid : Nat} {name : String} {cell : Cell}
    (hcolumn : columns[i]? = some (name, oid)) (hcell : cells[i]? = some cell) :
    ∃ value, values[i]? = some value ∧ readCell oid cell = .ok value := by
  have hplace : (columns.zip cells)[i]? = some ((name, oid), cell) :=
    List.getElem?_zip_eq_some.mpr ⟨hcolumn, hcell⟩
  obtain ⟨hi, hplace⟩ := List.getElem?_eq_some_iff.mp hplace
  have hlength : i < values.length := hvalues.length_eq ▸ hi
  have hread := hvalues.get hi hlength
  rw [List.get_eq_getElem, hplace] at hread
  exact ⟨values[i], List.getElem?_eq_getElem hlength, hread⟩

/-- What is handed on at a place was read from the event at that place. -/
theorem read_of_itemsOf {sql : String} {sent : List Event} {k : Nat} {record : Record}
    (h : (itemsOf sql (readEvents sent))[k]? = some (.ok record)) :
    ∃ event, sent[k]? = some event ∧ event.read = .ok record := by
  induction sent generalizing k with
  | nil => simp [itemsOf, readEvents] at h
  | cons event sent ih =>
    rw [readEvents] at h
    cases hread : event.read with
    | error e =>
      rw [hread] at h
      cases k with
      | zero => simp [itemsOf] at h
      | succ k => simp [itemsOf] at h
    | ok first =>
      rw [hread] at h
      cases k with
      | zero =>
        obtain rfl : first = record := by simpa [itemsOf] using h
        exact ⟨event, rfl, hread⟩
      | succ k => exact ih (by simpa [itemsOf] using h)

/-- The row that a record at a place was read from. -/
theorem row_of_queryRows {s : Server} {sql : String} {k : Nat} {record : Record}
    (h : (s.queryRows sql)[k]? = some (.ok record)) :
    ∃ columns cells, (events (s.result sql))[k]? = some (.row columns cells) ∧
      ∃ values, Values columns cells values ∧
        record = .ofList ((columns.map Prod.fst).zip values) := by
  unfold Server.queryRows at h
  cases hrefusal : s.refusal with
  | some message =>
    rw [hrefusal] at h
    cases k with
    | zero => simp at h
    | succ k => simp at h
  | none =>
    rw [hrefusal] at h
    change (itemsOf sql (readSets (s.result sql)))[k]? = some (.ok record) at h
    rw [readSets_eq_readEvents] at h
    obtain ⟨event, hevent, hread⟩ := read_of_itemsOf h
    cases Event.reads_iff.mpr hread with
    | row hvalues => exact ⟨_, _, hevent, _, hvalues, rfl⟩

/-- Of a row that was read, with columns of different names, the line shows null for a column
exactly if its cell is null or holds a number that is not finite. -/
theorem null_shown_iff {s : Server} {sql : String} {k : Nat} {record : Record}
    (hrow : (s.queryRows sql)[k]? = some (.ok record)) :
    ∃ (columns : List (String × Nat)) (cells : List Cell),
      (events (s.result sql))[k]? = some (.row columns cells) ∧
      ((columns.map Prod.fst).Nodup →
        ∃ entries : List (String × List Char), Shows record.line entries ∧
          entries.length = (columns.zip cells).length ∧
          ∀ (i oid : Nat) (name : String) (cell : Cell),
            columns[i]? = some (name, oid) → cells[i]? = some cell →
              ∃ text, entries[i]? = some (name, text) ∧
                (text = nullText ↔ IsNull oid cell ∨ Unbounded oid cell)) := by
  obtain ⟨columns, cells, hevent, values, hvalues, rfl⟩ := row_of_queryRows hrow
  refine ⟨columns, cells, hevent, ?_⟩
  intro hnames
  have hlength : values.length = (columns.zip cells).length := hvalues.length_eq.symm
  have hfields : (Record.ofList ((columns.map Prod.fst).zip values)).fields =
      (columns.map Prod.fst).zip values :=
    Record.fields_ofList (nodup_names hnames)
  refine ⟨_, Record.shows_line _, ?_, ?_⟩
  · rw [hfields]
    simp [hlength]
  · intro i oid name cell hcolumn hcell
    obtain ⟨value, hvalue, hread⟩ := value_of_cell hvalues hcolumn hcell
    refine ⟨write value.toJson, ?_, write_readCell_iff hread⟩
    have hfield : ((columns.map Prod.fst).zip values)[i]? = some (name, value) := by
      simp [List.getElem?_zip_eq_some, hcolumn, hvalue]
    rw [hfields, List.getElem?_map, hfield]
    rfl

/-- A server that answers every statement with one result set. -/
def Server.holding (set : ResultSet) : Server where
  refusal := none
  hasSchema _ := true
  tables := []
  columns := []
  schemaFailure := none
  tablesFailure := none
  columnsFailure := none
  watchFailure := none
  result _ := [set]

/-- The word null in a column of texts is not shown as null. -/
theorem null_shown_word :
    let record := Record.ofList [("a", .null), ("b", .string "null")]
    ((Server.holding ⟨[("a", 25), ("b", 25)], [[none, some "null"]], none⟩).queryRows
        "select a, b from words")[0]? = some (.ok record) ∧
      ∃ entries, Shows record.line entries ∧
        entries[0]? = some ("a", nullText) ∧
        ∃ text, entries[1]? = some ("b", text) ∧ text ≠ nullText := by
  intro record
  have hrow : ((Server.holding ⟨[("a", 25), ("b", 25)], [[none, some "null"]], none⟩).queryRows
      "select a, b from words")[0]? = some (.ok record) := rfl
  refine ⟨hrow, ?_⟩
  obtain ⟨columns, cells, hevent, hshown⟩ := null_shown_iff hrow
  obtain ⟨rfl, rfl⟩ : [("a", 25), ("b", 25)] = columns ∧ [none, some "null"] = cells :=
    Event.row.inj (Option.some.inj hevent)
  obtain ⟨entries, hentries, -, htexts⟩ := hshown (by decide)
  obtain ⟨first, hfirst, hnull⟩ := htexts 0 25 "a" none rfl rfl
  obtain ⟨text, htext, hword⟩ := htexts 1 25 "b" (some "null") rfl rfl
  refine ⟨entries, hentries, ?_, text, htext, ?_⟩
  · rw [hfirst, hnull.mpr (.inl .empty)]
  · rw [ne_eq, hword]
    rintro (hcell | ⟨x, hread, _⟩)
    · cases hcell with
      | document hoid _ => omega
    · cases hread

/-- A number that is not finite is shown as an empty cell is. -/
theorem not_a_number_shown :
    ∃ record, ((Server.holding ⟨[("x", 701)], [[some "NaN"]], none⟩).queryRows
        "select x from numbers")[0]? = some (.ok record) ∧
      record.line = "\x7b\"x\":null\x7d" ∧ ¬ IsNull 701 (some "NaN") := by
  refine ⟨.ofList [("x", .float .notANumber)], rfl, by decide, ?_⟩
  intro hcell
  cases hcell with
  | document hoid _ => omega

end Pushdown.Postgres
