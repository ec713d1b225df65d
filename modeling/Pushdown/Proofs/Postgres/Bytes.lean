import Mathlib
import Pushdown.Postgres.Cell
import Pushdown.Proofs.Text.Hex

/-!
# Cells of byte strings

A byte string is shown as a mark and two small digits a byte, and a cell of its type is read from
the same notation with digits in either case. Main statement: the text of a byte string reads back,
a text that is read is shown again with its digits made small, and no two byte strings are shown
alike (`readCell_bytes`).
-/

namespace Pushdown.Postgres

open Text

/-- Digits behind a backslash and an x. -/
def marked (digits : List Char) : String :=
  String.ofList ('\\' :: 'x' :: digits)

theorem marked_inj {a b : List Char} : marked a = marked b ↔ a = b := by
  simp [marked, String.ofList_inj]

/-- A byte string is shown with the digits that are written for it. -/
theorem toJson_bytes (bytes : List UInt8) :
    (Value.bytes bytes).toJson = .string (marked (Hex.ofBytes bytes)) := rfl

theorem toJson_bytes_inj {a b : List UInt8} :
    (Value.bytes a).toJson = (Value.bytes b).toJson ↔ a = b := by
  rw [toJson_bytes, toJson_bytes, Json.string.injEq, marked_inj, Hex.ofBytes_inj]

/-- A text is read as bytes just if it is a mark and digits that spell them. -/
theorem readBytes_eq_ok_iff {s : List Char} {bytes : List UInt8} :
    readBytes s = .ok bytes ↔
      ∃ digits, s = '\\' :: 'x' :: digits ∧ Hex.Spells (digits.map Char.toLower) bytes := by
  unfold readBytes
  split
  · rename_i digits
    rw [mapError_eq_ok_iff, Hex.read_eq_ok_iff]
    simp
  · rename_i hmark
    constructor
    · intro h
      cases h
    · intro ⟨digits, hs, _⟩
      exact absurd hs (hmark digits)

/-- A cell of the type is read just if its text is a mark and digits that spell bytes. -/
theorem readCell_bytea_iff {text : String} {value : Value} :
    readCell 17 (some text) = .ok value ↔
      ∃ digits bytes, text = marked digits ∧ Hex.Spells (digits.map Char.toLower) bytes ∧
        value = .bytes bytes := by
  have htype : CellType.ofOid 17 = .bytes := rfl
  rw [readCell, htype, readText, map_eq_ok_iff]
  simp only [readBytes_eq_ok_iff]
  constructor
  · intro ⟨bytes, ⟨digits, htext, hspells⟩, hvalue⟩
    refine ⟨digits, bytes, ?_, hspells, hvalue.symm⟩
    rw [marked, ← htext, String.ofList_toList]
  · intro ⟨digits, bytes, htext, hspells, hvalue⟩
    refine ⟨bytes, ⟨digits, ?_, hspells⟩, hvalue.symm⟩
    rw [htext, marked, String.toList_ofList]

/-- A byte string is shown with two small digits for each byte, and a cell with the text that is
shown is read as the byte string again. A cell is read just if its text is a mark and an even number
of digits in either case, and its value is then shown as that text with its digits made small. So two
byte strings are shown alike just if they are equal. -/
theorem readCell_bytes :
    (∀ bytes : List UInt8, ∃ digits, Hex.Spells digits bytes ∧
      (Value.bytes bytes).toJson = .string (marked digits) ∧
      readCell 17 (some (marked digits)) = .ok (.bytes bytes)) ∧
    (∀ (text : String) (value : Value), readCell 17 (some text) = .ok value ↔
      ∃ digits bytes, text = marked digits ∧ Even digits.length ∧ (∀ c ∈ digits, Hex.IsHex c) ∧
        value = .bytes bytes ∧ value.toJson = .string (marked (digits.map Char.toLower))) ∧
    ∀ a b : List UInt8, (Value.bytes a).toJson = (Value.bytes b).toJson ↔ a = b := by
  refine ⟨?_, ?_, fun a b => toJson_bytes_inj⟩
  · intro bytes
    have hspells : Hex.Spells (Hex.ofBytes bytes) bytes := Hex.spells_ofBytes bytes
    refine ⟨Hex.ofBytes bytes, hspells, toJson_bytes bytes, ?_⟩
    refine readCell_bytea_iff.mpr ⟨Hex.ofBytes bytes, bytes, rfl, ?_, rfl⟩
    rwa [hspells.map_toLower]
  · intro text value
    rw [readCell_bytea_iff]
    constructor
    · intro ⟨digits, bytes, htext, hspells, hvalue⟩
      obtain ⟨heven, hdigits⟩ := Hex.exists_spells_iff.mp ⟨bytes, hspells⟩
      refine ⟨digits, bytes, htext, heven, hdigits, hvalue, ?_⟩
      rw [hvalue, toJson_bytes, Hex.spells_iff.mp hspells]
    · intro ⟨digits, bytes, htext, _, _, hvalue, hshown⟩
      refine ⟨digits, bytes, htext, ?_, hvalue⟩
      rw [hvalue, toJson_bytes, Json.string.injEq, marked_inj] at hshown
      exact Hex.spells_iff.mpr hshown.symm

end Pushdown.Postgres
