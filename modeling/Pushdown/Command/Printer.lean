import Pushdown.Record

/-!
# Printing rows

A printer takes rows one after the other. It writes each of them on a line, counts the lines and
answers whether it wants another row. A row that comes at the limit is not written.
-/

namespace Pushdown.Command

/-- A printer of rows, with what it has written so far. -/
structure Printer where
  /-- how many rows are written at most, if there is a limit -/
  limit : Option Nat
  output : String := ""
  /-- how many rows have been written -/
  written : Nat := 0

namespace Printer

/-- Takes a row, and answers whether another one is wanted. -/
def push (p : Printer) (row : Record) : Printer × Bool :=
  if p.limit.any (· ≤ p.written) then (p, false)
  else
    let p := { p with output := p.output ++ row.line ++ "\n", written := p.written + 1 }
    (p, p.limit.all (p.written < ·))

/-- Takes rows one after the other. The answer is that to the last of them. -/
def run (p : Printer) (rows : List Record) : Printer × Bool :=
  rows.foldl (fun state row => state.1.push row) (p, true)

end Printer

/-- Whether a printer under a limit wants another row behind those it was given. -/
def wantsMore (limit : Option Nat) (rows : List Record) : Bool :=
  (Printer.run { limit } rows).2

/-- What a printer under a limit prints of rows. -/
def printed (limit : Option Nat) (rows : List Record) : String :=
  (Printer.run { limit } rows).1.output

end Pushdown.Command
