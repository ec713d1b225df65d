import Mathlib
import Pushdown.Proofs.Command.Printer
import Pushdown.Proofs.Json.Compact
import Pushdown.Proofs.Json.Null
import Pushdown.Proofs.Text.Hex

/-!
# Lines of printed rows

A control character in a string is escaped, and nothing else in a document is one, so a document is
written without control characters (`isGraphic_write`). A line feed in the output is then the end of
a row. Main statement: the output of a listing without a limit, split at its line feeds, comes to
the lines of the rows and an empty piece behind them (`splitOn_printed`).
-/

namespace Pushdown.Json

open Number Text

/-- The space and all characters behind it, which leaves out the control characters of ASCII. -/
def isGraphic (c : Char) : Bool :=
  0x20 ≤ c.toNat

/-! ## Strings -/

/-- A control character is escaped by characters that are none. -/
theorem isGraphic_writeChar (c : Char) : ∀ written ∈ writeChar c, isGraphic written = true := by
  unfold writeChar
  split
  · exact List.all_eq_true.mp rfl
  split
  · exact List.all_eq_true.mp rfl
  split
  · exact List.all_eq_true.mp rfl
  split
  · exact List.all_eq_true.mp rfl
  split
  · exact List.all_eq_true.mp rfl
  split
  · exact List.all_eq_true.mp rfl
  split
  · exact List.all_eq_true.mp rfl
  split
  · have hdigit : ∀ n < 16, isGraphic (Hex.digit n) = true := by decide
    have hmark : ∀ written ∈ ['\\', 'u', '0', '0'], isGraphic written = true :=
      List.all_eq_true.mp rfl
    simp only [List.forall_mem_cons] at hmark ⊢
    simp only [hmark, hdigit _ (show c.toNat / 16 < 16 by omega),
      hdigit _ (show c.toNat % 16 < 16 by omega), List.not_mem_nil, false_implies, implies_true,
      and_self]
  · rename_i hcontrol
    intro written hwritten
    rw [List.mem_singleton.mp hwritten]
    exact decide_eq_true (Nat.le_of_not_lt hcontrol)

theorem isGraphic_writeString (text : String) :
    ∀ written ∈ writeString text, isGraphic written = true := by
  refine forall_writeString ?_ fun c _ => isGraphic_writeChar c
  rfl

/-! ## Documents -/

/-- No document is written with a control character, whatever its texts hold. -/
theorem isGraphic_write (document : Json) : ∀ c ∈ write document, isGraphic c = true := by
  have hmarks : OfMarks fun c => isGraphic c = true := List.all_eq_true.mp rfl
  have hnull : ∀ c ∈ nullText, isGraphic c = true := List.all_eq_true.mp rfl
  have hnumeral : ∀ c, isNumeralChar c = true → isGraphic c = true :=
    forall_isNumeralChar (by decide) (by decide)
  induction document using inductionOnParts with
  | null => exact hnull
  | bool b =>
    cases b with
    | true => exact List.all_eq_true.mp rfl
    | false => exact List.all_eq_true.mp rfl
  | int n => exact fun c hc => hnumeral c (isNumeralChar_ofInt n c hc)
  | double x =>
    show ∀ c ∈ x.document?.getD nullText, isGraphic c = true
    by_cases hfinite : x.isFinite = true
    · obtain ⟨text, htext, _, hchars⟩ := document?_of_isFinite hfinite
      rw [htext]
      exact fun c hc => hnumeral c (hchars c hc)
    · rw [document?_of_not_isFinite (by simpa using hfinite)]
      exact hnull
  | string text => exact isGraphic_writeString text
  | array items hitems => exact forall_write_array hmarks hitems
  | object fields hfields =>
    exact forall_write_object hmarks (fun field _ => isGraphic_writeString field.1) hfields

end Pushdown.Json

namespace Pushdown

/-- A record is written on its line without a control character. -/
theorem Record.isGraphic_line (r : Record) : ∀ c ∈ r.line.toList, Json.isGraphic c = true := by
  rw [line, Json.compact, String.toList_ofList]
  exact Json.isGraphic_write _

namespace Command

/-- Printed rows are their lines and an empty piece, with line feeds between them. -/
theorem toList_printed (rows : List Record) :
    (printed none rows).toList =
      ['\n'].intercalate ((rows.map fun row => row.line.toList) ++ [[]]) := by
  rw [printed_eq, underLimit, String.toList_join]
  induction rows with
  | nil => simp
  | cons row rows ih =>
    rw [List.map_cons, List.flatMap_cons, ih, List.map_cons, List.cons_append,
      List.intercalate_cons_of_ne_nil (by simp), String.toList_append]
    rfl

/-- The output of rows without a limit, split at its line feeds, comes to the line of each row and
an empty piece behind the last one; for no line has a control character in it, whatever the record
holds. -/
theorem splitOn_printed (rows : List Record) :
    (printed none rows).toList.splitOn '\n' =
        (rows.map fun row => row.line.toList) ++ [[]] ∧
      ∀ row : Record, ∀ c ∈ row.line.toList, 0x20 ≤ c.toNat := by
  have hgraphic : ∀ row : Record, ∀ c ∈ row.line.toList, 0x20 ≤ c.toNat :=
    fun row c hc => of_decide_eq_true (row.isGraphic_line c hc)
  refine ⟨?_, hgraphic⟩
  rw [toList_printed]
  apply List.splitOn_intercalate
  · intro piece hpiece hfeed
    rcases List.mem_append.mp hpiece with hline | hend
    · obtain ⟨row, _, hrow⟩ := List.mem_map.mp hline
      rw [← hrow] at hfeed
      exact absurd (hgraphic row '\n' hfeed) (by decide)
    · rw [List.mem_singleton.mp hend] at hfeed
      cases hfeed
  · simp

end Command

end Pushdown
