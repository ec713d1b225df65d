import Pushdown.Proofs.Catalog.Listing

/-!
# Raw queries

A raw query is read to its end before anything is handed on, so its rows come all together or not at
all. `Wrapped` says what it comes to for the items that the source answers: one record of the query
and of all rows, or the first failure and no record. Main statement: that is what the raw-query
table hands on and what a listing of it pushes, whatever the sink says, and nothing behind the first
failure is read (`list_rawQuery`).
-/

namespace Pushdown

/-- What a raw query comes to for the items of its answer: the one item that is handed on, and the
listing of it. -/
inductive Wrapped (sql : String) : List Item → Item → Listing → Prop
  | whole {record : Record} (rows : List Record) :
      record.fields = [("query", .string sql), ("data", .json (.array (rows.map Record.toJson)))] →
      Wrapped sql (rows.map .ok) (.ok record) ⟨[record], none, rows.length⟩
  | broken (rows : List Record) (e : Error) (rest : List Item) :
      Wrapped sql (rows.map .ok ++ .error e :: rest) (.error e) ⟨[], some e, rows.length + 1⟩

/-! ## Gathering the rows -/

/-- Items are rows to their end, or rows in front of a failure. -/
theorem rows_or_failure (items : List Item) :
    (∃ rows : List Record, items = rows.map .ok) ∨
      ∃ (rows : List Record) (e : Error) (rest : List Item),
        items = rows.map .ok ++ .error e :: rest := by
  induction items with
  | nil => exact .inl ⟨[], rfl⟩
  | cons item items ih =>
    cases item with
    | error e => exact .inr ⟨[], e, items, rfl⟩
    | ok row =>
      rcases ih with ⟨rows, rfl⟩ | ⟨rows, e, rest, rfl⟩
      · exact .inl ⟨row :: rows, rfl⟩
      · exact .inr ⟨row :: rows, e, rest, rfl⟩

theorem gatherRows_rows (rows : List Record) :
    gatherRows (rows.map .ok) = (.ok (rows.map Record.toJson), rows.length) := by
  induction rows with
  | nil => rfl
  | cons row rows ih =>
    rw [List.map_cons, gatherRows, ih]
    rfl

/-- The rows in front of a failure are dropped. -/
theorem gatherRows_failure (rows : List Record) (e : Error) (rest : List Item) :
    gatherRows (rows.map .ok ++ .error e :: rest) = (.error e, rows.length + 1) := by
  induction rows with
  | nil => rfl
  | cons row rows ih =>
    rw [List.map_cons, List.cons_append, gatherRows, ih]
    rfl

/-! ## One delivery -/

theorem rawDelivery_rows (sql : String) (rows : List Record) :
    rawDelivery sql (rows.map .ok) =
      ⟨.ok (rawRecord sql (rows.map Record.toJson)), rows.length⟩ := by
  rw [rawDelivery, gatherRows_rows]
  rfl

theorem rawDelivery_failure (sql : String) (rows : List Record) (e : Error) (rest : List Item) :
    rawDelivery sql (rows.map .ok ++ .error e :: rest) = ⟨.error e, rows.length + 1⟩ := by
  rw [rawDelivery, gatherRows_failure]
  rfl

/-- An item that is handed on alone is pushed if it is a record, whether or not the sink wants
more. -/
theorem run_single (sink : List Record → Bool) (d : Delivery) :
    Listing.run sink [] [d] =
      match d.item with
      | .ok record => ⟨[record], none, d.pulled⟩
      | .error e => ⟨[], some e, d.pulled⟩ := by
  unfold Listing.run
  cases d.item with
  | error e => rfl
  | ok record =>
    show (if sink [record] then _ else _) = _
    split
    · rfl
    · rfl

theorem pulled_run_single (sink : List Record → Bool) (d : Delivery) :
    (Listing.run sink [] [d]).pulled = d.pulled := by
  rw [run_single]
  cases d.item with
  | error e => rfl
  | ok record => rfl

theorem wrapped_rawDelivery (sql : String) (items : List Item) (sink : List Record → Bool) :
    Wrapped sql items (rawDelivery sql items).item
      (Listing.run sink [] [rawDelivery sql items]) := by
  rw [run_single]
  rcases rows_or_failure items with ⟨rows, rfl⟩ | ⟨rows, e, rest, rfl⟩
  · rw [rawDelivery_rows]
    exact .whole rows rfl
  · rw [rawDelivery_failure]
    exact .broken rows e rest

/-- Behind the items that were pulled up to a failure others make no difference. -/
theorem rawDelivery_congr {sql : String} {items others : List Item} {e : Error}
    (hfailed : (rawDelivery sql items).item = .error e)
    (hsame : others.take (rawDelivery sql items).pulled =
      items.take (rawDelivery sql items).pulled) :
    rawDelivery sql others = rawDelivery sql items := by
  rcases rows_or_failure items with ⟨rows, rfl⟩ | ⟨rows, e, rest, rfl⟩
  · rw [rawDelivery_rows] at hfailed
    cases hfailed
  · rw [rawDelivery_failure] at hsame ⊢
    have hfront : (rows.map Except.ok ++ Except.error e :: rest : List Item).take
        (rows.length + 1) = rows.map .ok ++ [.error e] := by
      simp [List.take_append]
    -- The others start with the same rows and the same failure.
    have hothers : others = rows.map .ok ++ .error e :: others.drop (rows.length + 1) := by
      have happend := List.take_append_drop (rows.length + 1) others
      rw [hsame, hfront, List.append_assoc] at happend
      exact happend.symm
    rw [hothers, rawDelivery_failure]

/-! ## The raw-query table -/

namespace Catalog

variable {c : Catalog} {name : String} {table : VirtualTable} {quals : List Qualifier}
  {sql : String}

theorem stream_of_query (htable : c.table? name = some table) (hkind : table.kind = .rawQuery)
    (hquery : Brings quals sql) : c.stream name quals = .ok (c.rawStream sql) := by
  rw [stream_of_table htable, hkind]
  show (queryText table quals).map c.rawStream = _
  rw [queryText_eq_ok_iff.mpr hquery]
  rfl

theorem list_of_query (htable : c.table? name = some table) (hkind : table.kind = .rawQuery)
    (hquery : Brings quals sql) (sink : List Record → Bool) :
    (c.list name quals sink).1 =
      Listing.run sink [] [rawDelivery sql (c.source.query c.url sql)] := by
  unfold list
  rw [stream_of_query htable hkind hquery]
  rfl

/-- The raw-query table hands on one item for the whole answer of the source, and a listing pushes
that item if it is a record. Behind the first failure nothing is read. -/
theorem list_rawQuery (htable : c.table? name = some table) (hkind : table.kind = .rawQuery)
    (hquery : Brings quals sql) :
    ∃ stream item, c.stream name quals = .ok stream ∧ stream.call = .query c.url sql ∧
      stream.items = [item] ∧
      ∀ sink,
        let listing := (c.list name quals sink).1
        Wrapped sql (c.source.query c.url sql) item listing ∧ listing.pulled = stream.pulled ∧
          ∀ source : Source, listing.failure ≠ none →
            (source.query c.url sql).take listing.pulled =
              (c.source.query c.url sql).take listing.pulled →
            (Catalog.list { c with source } name quals sink).1 = listing := by
  refine ⟨c.rawStream sql, (rawDelivery sql (c.source.query c.url sql)).item,
    stream_of_query htable hkind hquery, rfl, rfl, ?_⟩
  intro sink listing
  have hlisting : listing = Listing.run sink [] [rawDelivery sql (c.source.query c.url sql)] :=
    list_of_query htable hkind hquery sink
  have hpulled : listing.pulled = (rawDelivery sql (c.source.query c.url sql)).pulled := by
    rw [hlisting, pulled_run_single]
  refine ⟨?_, hpulled, ?_⟩
  · rw [hlisting]
    exact wrapped_rawDelivery sql _ sink
  · intro source hfailed hsame
    have hother : (Catalog.list { c with source } name quals sink).1 =
        Listing.run sink [] [rawDelivery sql (source.query c.url sql)] :=
      list_of_query (c := { c with source }) htable hkind hquery sink
    rw [hpulled] at hsame
    rw [hlisting, run_single] at hfailed
    cases hitem : (rawDelivery sql (c.source.query c.url sql)).item with
    | ok record =>
      rw [hitem] at hfailed
      exact absurd rfl hfailed
    | error e => rw [hother, hlisting, rawDelivery_congr hitem hsame]

/-- A source that breaks off behind the first row of whatever it is asked. -/
def breakingOff : Catalog where
  tables := registerTables [] []
  schema := "public"
  url := "postgres://db"
  style := .verbatim
  source :=
    { introspect := fun _ _ => .ok []
      query := fun _ sql =>
        [.ok (.ofList [("id", .int 1)]), .error (.query sql (.told "gone")),
          .ok (.ofList [("id", .int 2)])] }

/-- The row in front of the failure is not pushed, although the sink would take it. -/
theorem list_rawQuery_broken :
    ∃ table quals, breakingOff.table? "raw_query" = some table ∧ table.kind = .rawQuery ∧
      Brings quals "select 1" ∧
      let listing := (breakingOff.list "raw_query" quals fun _ => true).1
      (∃ item, Wrapped "select 1" (breakingOff.source.query "postgres://db" "select 1") item
        listing) ∧ listing.pushed = [] ∧ listing.pulled = 2 := by
  have hquery : Brings [⟨"query", .equal, some (.string "select 1")⟩] "select 1" :=
    (@queryText_eq_ok_iff _ (VirtualTable.rawQuery rawQueryName) _).mp rfl
  refine ⟨_, _, rfl, rfl, hquery, ?_⟩
  obtain ⟨_, item, _, _, _, hlisting⟩ :=
    @list_rawQuery breakingOff "raw_query" _ _ _ rfl rfl hquery
  exact ⟨⟨item, (hlisting fun _ => true).1⟩, rfl, rfl⟩

end Catalog

end Pushdown
