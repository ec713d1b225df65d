import Mathlib
import Pushdown.Postgres.Server

/-!
# Rows of a Postgres server

What a server sends for a statement is one sequence of events, rows and failures, across its result
sets. A row reads as a record if each of its cells does, and else it fails with its first cell that
is no value of its type. `Handed` says what is handed on of a sequence: the records of all events or
of those in front of the first that fails, and then the one failure. Main statement: that is what
the rows of a statement are, unless the server turns its client away (`queryRows_handed`).
-/

namespace Pushdown.Postgres

/-! ## Events -/

/-- One thing that a server sends for a statement. -/
inductive Event where
  | row (columns : List (String × Nat)) (cells : List Cell)
  | failure (message : String)

/-- The events of a result set: its rows, and behind them its failure. -/
def ResultSet.events (set : ResultSet) : List Event :=
  set.rows.map (.row set.columns) ++ (set.failure.map .failure).toList

/-- The events of result sets, one set after the other. -/
def events (sets : List ResultSet) : List Event :=
  sets.flatMap ResultSet.events

/-- A cell of a row is no value of its type. -/
def CellFails (columns : List (String × Nat)) (cells : List Cell) (index : Nat)
    (cause : CellError) : Prop :=
  ∃ name oid cell, columns[index]? = some (name, oid) ∧ cells[index]? = some cell ∧
    readCell oid cell = .error cause

/-- The first cell of a row that is no value of its type. -/
structure FirstFails (columns : List (String × Nat)) (cells : List Cell) (index : Nat)
    (cause : CellError) : Prop where
  fails : CellFails columns cells index cause
  least : ∀ i < index, ∀ other, ¬ CellFails columns cells i other

/-- The values of cells under their columns. -/
def Values (columns : List (String × Nat)) (cells : List Cell) (values : List Value) : Prop :=
  List.Forall₂ (fun place value => readCell place.1.2 place.2 = .ok value) (columns.zip cells) values

/-- A row whose cells all have values is the record of them under the names of the columns. -/
inductive Event.Reads : Event → Record → Prop
  | row {columns : List (String × Nat)} {cells : List Cell} {values : List Value} :
      Values columns cells values →
      Reads (.row columns cells) (.ofList ((columns.map Prod.fst).zip values))

/-- What an event fails with. -/
inductive Event.Fails : Event → Failure → Prop
  | cell {columns : List (String × Nat)} {cells : List Cell} {index : Nat} {cause : CellError} :
      FirstFails columns cells index cause → Fails (.row columns cells) (.cell index cause)
  | failure (message : String) : Fails (.failure message) (.database message)

/-- What is handed on of events: a record of each up to the first that fails, then that failure. -/
inductive Handed (sql : String) (sent : List Event) : List Item → Prop
  | all {records : List Record} :
      List.Forall₂ Event.Reads sent records → Handed sql sent (records.map .ok)
  | upTo {good rest : List Event} {bad : Event} {records : List Record} {failure : Failure} :
      sent = good ++ bad :: rest → List.Forall₂ Event.Reads good records → bad.Fails failure →
      Handed sql sent (records.map .ok ++ [.error (.query sql failure)])

/-! ## One row -/

variable {columns : List (String × Nat)} {cells : List Cell} {name : String} {oid : Nat}
  {cell : Cell} {cause : CellError}

theorem not_firstFails_nil_left {index : Nat} : ¬ FirstFails [] cells index cause := by
  rintro ⟨⟨_, _, _, hcolumn, _, _⟩, _⟩
  simp at hcolumn

theorem not_firstFails_nil_right {index : Nat} : ¬ FirstFails columns [] index cause := by
  rintro ⟨⟨_, _, _, _, hcell, _⟩, _⟩
  simp at hcell

theorem cellFails_zero_iff :
    CellFails ((name, oid) :: columns) (cell :: cells) 0 cause ↔ readCell oid cell = .error cause := by
  constructor
  · rintro ⟨_, _, _, hcolumn, hcell, hfails⟩
    cases hcolumn
    cases hcell
    exact hfails
  · intro hfails
    exact ⟨name, oid, cell, rfl, rfl, hfails⟩

/-- A first cell that is no value is the first one. -/
theorem firstFails_cons_error {index : Nat} {e : CellError} (h : readCell oid cell = .error e) :
    FirstFails ((name, oid) :: columns) (cell :: cells) index cause ↔ index = 0 ∧ cause = e := by
  constructor
  · rintro ⟨hfails, hleast⟩
    obtain rfl : index = 0 := by
      by_contra hne
      exact hleast 0 (Nat.pos_of_ne_zero hne) e (cellFails_zero_iff.mpr h)
    rw [cellFails_zero_iff, h] at hfails
    exact ⟨rfl, (Except.error.inj hfails).symm⟩
  · rintro ⟨rfl, rfl⟩
    exact ⟨cellFails_zero_iff.mpr h, fun i hi => absurd hi (Nat.not_lt_zero i)⟩

/-- Behind a cell with a value the search goes on. -/
theorem firstFails_cons_ok {index : Nat} {value : Value} (h : readCell oid cell = .ok value) :
    FirstFails ((name, oid) :: columns) (cell :: cells) index cause ↔
      ∃ i, index = i + 1 ∧ FirstFails columns cells i cause := by
  have hzero : ∀ other, ¬ CellFails ((name, oid) :: columns) (cell :: cells) 0 other := by
    intro other hfails
    rw [cellFails_zero_iff, h] at hfails
    cases hfails
  constructor
  · rintro ⟨hfails, hleast⟩
    cases index with
    | zero => exact absurd hfails (hzero cause)
    | succ i =>
      exact ⟨i, rfl, hfails, fun j hj other => hleast (j + 1) (Nat.succ_lt_succ hj) other⟩
  · rintro ⟨i, rfl, hfails, hleast⟩
    refine ⟨hfails, ?_⟩
    intro j hj other
    cases j with
    | zero => exact hzero other
    | succ j => exact hleast j (Nat.lt_of_succ_lt_succ hj) other

/-- A record with fields inserted one after the other. -/
def insertAll (record : Record) (fields : List (String × Value)) : Record :=
  fields.foldl (fun r field => r.insert field.1 field.2) record

/-- Cells with values are inserted under their names. -/
theorem readCells_eq_ok_iff {record result : Record} {index : Nat} :
    readCells record index columns cells = .ok result ↔
      ∃ values, Values columns cells values ∧
        result = insertAll record ((columns.map Prod.fst).zip values) := by
  induction columns generalizing cells record index with
  | nil =>
    constructor
    · intro h
      cases h
      exact ⟨[], .nil, rfl⟩
    · rintro ⟨values, _, rfl⟩
      rfl
  | cons column columns ih =>
    obtain ⟨name, oid⟩ := column
    cases cells with
    | nil =>
      constructor
      · intro h
        cases h
        exact ⟨[], .nil, rfl⟩
      · rintro ⟨values, hvalues, rfl⟩
        cases hvalues
        rfl
    | cons cell cells =>
      rw [readCells]
      cases hcell : readCell oid cell with
      | error e =>
        constructor
        · intro h
          cases h
        · rintro ⟨values, hvalues, _⟩
          cases hvalues with
          | cons hvalue _ =>
            rw [hcell] at hvalue
            cases hvalue
      | ok value =>
        constructor
        · intro h
          obtain ⟨values, hvalues, hresult⟩ := ih.mp h
          exact ⟨value :: values, .cons hcell hvalues, hresult⟩
        · rintro ⟨values, hvalues, hresult⟩
          cases hvalues with
          | cons hvalue hrest =>
            rw [hcell] at hvalue
            cases hvalue
            exact ih.mpr ⟨_, hrest, hresult⟩

/-- Cells of which one is no value fail with the first such, counted from the given number on. -/
theorem readCells_eq_error_iff {record : Record} {index : Nat} {failure : Failure} :
    readCells record index columns cells = .error failure ↔
      ∃ i cause, FirstFails columns cells i cause ∧ failure = .cell (index + i) cause := by
  induction columns generalizing cells record index with
  | nil =>
    constructor
    · intro h
      cases h
    · rintro ⟨i, cause, hfirst, _⟩
      exact absurd hfirst not_firstFails_nil_left
  | cons column columns ih =>
    obtain ⟨name, oid⟩ := column
    cases cells with
    | nil =>
      constructor
      · intro h
        cases h
      · rintro ⟨i, cause, hfirst, _⟩
        exact absurd hfirst not_firstFails_nil_right
    | cons cell cells =>
      rw [readCells]
      cases hcell : readCell oid cell with
      | error e =>
        constructor
        · intro h
          cases h
          exact ⟨0, e, (firstFails_cons_error hcell).mpr ⟨rfl, rfl⟩, rfl⟩
        · rintro ⟨i, cause, hfirst, rfl⟩
          obtain ⟨rfl, rfl⟩ := (firstFails_cons_error hcell).mp hfirst
          rfl
      | ok value =>
        constructor
        · intro h
          obtain ⟨i, cause, hfirst, rfl⟩ := ih.mp h
          refine ⟨i + 1, cause, (firstFails_cons_ok hcell).mpr ⟨i, rfl, hfirst⟩, ?_⟩
          rw [Nat.add_assoc, Nat.add_comm 1]
        · rintro ⟨_, cause, hfirst, rfl⟩
          obtain ⟨i, rfl, hrest⟩ := (firstFails_cons_ok hcell).mp hfirst
          refine ih.mpr ⟨i, cause, hrest, ?_⟩
          rw [Nat.add_assoc, Nat.add_comm 1]

/-! ## One event -/

/-- Reads an event. -/
def Event.read : Event → Except Failure Record
  | .row columns cells => readRow columns cells
  | .failure message => .error (.database message)

theorem Event.reads_iff {event : Event} {record : Record} :
    event.Reads record ↔ event.read = .ok record := by
  cases event with
  | row columns cells =>
    show _ ↔ readCells .empty 0 columns cells = .ok record
    rw [readCells_eq_ok_iff]
    constructor
    · rintro ⟨hvalues⟩
      exact ⟨_, hvalues, rfl⟩
    · rintro ⟨values, hvalues, rfl⟩
      exact .row hvalues
  | failure message =>
    constructor
    · intro h
      cases h
    · intro h
      cases h

theorem Event.fails_iff {event : Event} {failure : Failure} :
    event.Fails failure ↔ event.read = .error failure := by
  cases event with
  | row columns cells =>
    show _ ↔ readCells .empty 0 columns cells = .error failure
    rw [readCells_eq_error_iff]
    constructor
    · rintro ⟨hfirst⟩
      exact ⟨_, _, hfirst, by rw [Nat.zero_add]⟩
    · rintro ⟨i, cause, hfirst, rfl⟩
      rw [Nat.zero_add]
      exact .cell hfirst
  | failure message =>
    constructor
    · rintro ⟨⟩
      rfl
    · intro h
      cases h
      exact .failure message

variable {sql : String} {event : Event} {sent : List Event} {items : List Item}

theorem handed_nil_iff : Handed sql [] items ↔ items = [] := by
  constructor
  · intro h
    cases h with
    | all hreads =>
      cases hreads
      rfl
    | upTo hsent _ _ => simp at hsent
  · rintro rfl
    exact .all .nil

/-- An event that reads is handed on in front of the others. -/
theorem handed_cons_ok {record : Record} (h : event.read = .ok record) :
    Handed sql (event :: sent) items ↔
      ∃ others, items = .ok record :: others ∧ Handed sql sent others := by
  have hrecord : ∀ other, event.Reads other → other = record := by
    intro other hreads
    rw [Event.reads_iff, h] at hreads
    exact (Except.ok.inj hreads).symm
  constructor
  · intro hhanded
    cases hhanded with
    | all hreads =>
      cases hreads with
      | cons hfirst hrest =>
        obtain rfl := hrecord _ hfirst
        exact ⟨_, rfl, .all hrest⟩
    | upTo hsent hreads hfails =>
      cases hreads with
      | nil =>
        -- The first event would be the one that fails, but it reads.
        obtain ⟨rfl, _⟩ := List.cons.inj hsent
        rw [Event.fails_iff, h] at hfails
        cases hfails
      | cons hfirst hrest =>
        obtain ⟨rfl, hbehind⟩ := List.cons.inj hsent
        obtain rfl := hrecord _ hfirst
        exact ⟨_, rfl, .upTo hbehind hrest hfails⟩
  · rintro ⟨others, rfl, hhanded⟩
    cases hhanded with
    | all hrest => exact .all (.cons (Event.reads_iff.mpr h) hrest)
    | upTo hsent hrest hfails =>
      exact .upTo (congrArg (event :: ·) hsent) (.cons (Event.reads_iff.mpr h) hrest) hfails

/-- Of an event that fails only the failure is handed on, and nothing behind it. -/
theorem handed_cons_error {failure : Failure} (h : event.read = .error failure) :
    Handed sql (event :: sent) items ↔ items = [.error (.query sql failure)] := by
  have hreads : ∀ record, ¬ event.Reads record := by
    intro record hrecord
    rw [Event.reads_iff, h] at hrecord
    cases hrecord
  constructor
  · intro hhanded
    cases hhanded with
    | all hall =>
      cases hall with
      | cons hfirst _ => exact absurd hfirst (hreads _)
    | upTo hsent hgood hfails =>
      cases hgood with
      | nil =>
        obtain ⟨rfl, _⟩ := List.cons.inj hsent
        rw [Event.fails_iff, h] at hfails
        rw [Except.error.inj hfails]
        rfl
      | cons hfirst _ =>
        obtain ⟨rfl, _⟩ := List.cons.inj hsent
        exact absurd hfirst (hreads _)
  · rintro rfl
    exact @Handed.upTo sql _ [] sent event [] failure rfl .nil (Event.fails_iff.mpr h)

/-! ## All events -/

/-- Reads events up to the first that fails. -/
def readEvents : List Event → List Record × Option Failure
  | [] => ([], none)
  | event :: rest =>
    match event.read with
    | .error e => ([], some e)
    | .ok record =>
      let (records, failure) := readEvents rest
      (record :: records, failure)

/-- Records as items, and the failure behind them. -/
def itemsOf (sql : String) (read : List Record × Option Failure) : List Item :=
  read.1.map .ok ++ (read.2.map fun e => .error (.query sql e)).toList

theorem handed_iff : Handed sql sent items ↔ items = itemsOf sql (readEvents sent) := by
  induction sent generalizing items with
  | nil => exact handed_nil_iff
  | cons event sent ih =>
    rw [readEvents]
    cases hread : event.read with
    | error e => exact handed_cons_error hread
    | ok record =>
      rw [handed_cons_ok hread]
      constructor
      · rintro ⟨others, rfl, hothers⟩
        rw [ih.mp hothers]
        rfl
      · rintro rfl
        exact ⟨_, rfl, ih.mpr rfl⟩

/-- Rows that all read stand in front of what comes behind them; else they end it. -/
theorem readEvents_rows (columns : List (String × Nat)) (rows : List (List Cell))
    (rest : List Event) :
    readEvents (rows.map (.row columns) ++ rest) =
      match readRows columns rows with
      | (records, some e) => (records, some e)
      | (records, none) => (records ++ (readEvents rest).1, (readEvents rest).2) := by
  induction rows with
  | nil => rfl
  | cons cells rows ih =>
    rw [List.map_cons, List.cons_append, readEvents, readRows, ih]
    show (match readRow columns cells with
      | .error e => _
      | .ok record => _) = _
    cases readRow columns cells with
    | error e => rfl
    | ok record =>
      obtain ⟨records, failure⟩ := readRows columns rows
      cases failure with
      | none => rfl
      | some e => rfl

/-- Result sets are read as the events they consist of. -/
theorem readSets_eq_readEvents (sets : List ResultSet) :
    readSets sets = readEvents (events sets) := by
  induction sets with
  | nil => rfl
  | cons set sets ih =>
    show _ = readEvents (set.events ++ events sets)
    rw [ResultSet.events, List.append_assoc, readEvents_rows, readSets, ih]
    -- A row that fails ends everything; else the set's own failure does, and else the next set comes.
    obtain ⟨records, failure⟩ := readRows set.columns set.rows
    cases failure with
    | some e => rfl
    | none =>
      cases set.failure with
      | none => rfl
      | some message => simp [readEvents, Event.read]

/-- The rows of a statement are what is handed on of the events of its result sets, unless the
server turns its client away. It does not matter whether the server looks after its client, and an
empty cell has a value under every type. -/
theorem queryRows_handed (s : Server) (sql : String) :
    (∀ items, s.queryRows sql = items ↔
      match s.refusal with
      | some message => items = [.error (.connection (.database message))]
      | none => Handed sql (events (s.result sql)) items) ∧
    (∀ watchFailure, Server.queryRows { s with watchFailure } sql = s.queryRows sql) ∧
    ∀ oid, readCell oid none = .ok .null := by
  refine ⟨?_, fun _ => rfl, fun _ => rfl⟩
  intro items
  unfold Server.queryRows
  cases s.refusal with
  | some message => exact eq_comm
  | none =>
    show itemsOf sql (readSets (s.result sql)) = items ↔ Handed sql _ items
    rw [handed_iff, readSets_eq_readEvents]
    exact eq_comm

end Pushdown.Postgres
