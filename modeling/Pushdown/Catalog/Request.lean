import Pushdown.Catalog

/-!
# Requests

A request names a table and the qualifiers of its filter. The rows of a dynamic table are passed on
one by one. The raw-query table runs its query to the end and answers one record, or the first
failure alone. A listing pushes rows into a sink until the sink declines one; rows pushed before a
failure stay pushed.
-/

namespace Pushdown

/-- An item that is handed on, and how many items of the source were pulled for it. -/
structure Delivery where
  item : Item
  pulled : Nat

/-- What a request answers: the call it makes and the items it hands on. -/
structure Stream where
  call : Call
  deliveries : List Delivery

namespace Stream

/-- The items of a stream. -/
def items (s : Stream) : List Item :=
  s.deliveries.map (·.item)

/-- How many items of the source are pulled for the whole stream. -/
def pulled (s : Stream) : Nat :=
  s.deliveries.foldr (fun d n => d.pulled + n) 0

end Stream

/-- The documents of all rows or the first failure, and how many items that took. -/
def gatherRows : List Item → Except Error (List Json) × Nat
  | [] => (.ok [], 0)
  | .error e :: _ => (.error e, 1)
  | .ok row :: rest =>
    let (documents, pulled) := gatherRows rest
    (documents.map (row.toJson :: ·), pulled + 1)

/-- The record that a raw query answers: the query and the rows as one array. -/
def rawRecord (sql : String) (documents : List Json) : Record :=
  .ofList [(VirtualTable.queryColumn, .string sql),
    (VirtualTable.dataColumn, .json (.array documents))]

/-- The one item that a raw query hands on. -/
def rawDelivery (sql : String) (items : List Item) : Delivery :=
  let (documents, pulled) := gatherRows items
  ⟨documents.map (rawRecord sql), pulled⟩

/-- The outcome of a listing. -/
structure Listing where
  /-- the rows that were pushed, in their order -/
  pushed : List Record
  /-- the failure that ended the listing, if one did -/
  failure : Option Error
  /-- how many items of the source were pulled -/
  pulled : Nat

/-- Pushes rows on top of those that were pushed before. The sink is asked after every row, with all
rows pushed so far, whether it takes another. -/
def Listing.run (sink : List Record → Bool) (pushed : List Record) : List Delivery → Listing
  | [] => ⟨pushed, none, 0⟩
  | d :: rest =>
    match d.item with
    | .error e => ⟨pushed, some e, d.pulled⟩
    | .ok row =>
      let pushed := pushed ++ [row]
      if sink pushed then
        let listing := run sink pushed rest
        { listing with pulled := d.pulled + listing.pulled }
      else ⟨pushed, none, d.pulled⟩

/-- The number of rows pushed, or the failure. -/
def Listing.result (l : Listing) : Except Error Nat :=
  match l.failure with
  | some e => .error e
  | none => .ok l.pushed.length

namespace Catalog

/-- The table of a name, or the error that there is none. -/
def lookup (c : Catalog) (name : String) : Except Error VirtualTable :=
  match c.table? name with
  | some table => .ok table
  | none => .error (.unknownTable name)

/-- The query that qualifiers bring along: the text of the first equality on the query column. -/
def queryText (table : VirtualTable) (quals : List Qualifier) : Except Error String :=
  let first := quals.find? fun q => q.column = VirtualTable.queryColumn && q.operator = .equal
  match first.bind (·.value) |>.bind Literal.text? with
  | some sql => .ok sql
  | none => .error (.missingQualifier table.name VirtualTable.queryColumn)

/-- The statement that a request runs. -/
def statement (c : Catalog) (table : String) (quals : List Qualifier) : Except Error String := do
  let vt ← c.lookup table
  match vt.kind with
  | .dynamic => return selectStatement c.schema vt.name (c.style.render quals)
  | .rawQuery => queryText vt quals

/-- The stream of rows of a statement, passed on one by one. -/
def rowStream (c : Catalog) (sql : String) : Stream :=
  let (items, call) := c.source.askRows c.url sql
  ⟨call, items.map (⟨·, 1⟩)⟩

/-- The stream of a raw query. -/
def rawStream (c : Catalog) (sql : String) : Stream :=
  let (items, call) := c.source.askRows c.url sql
  ⟨call, [rawDelivery sql items]⟩

/-- The stream that answers a request. -/
def stream (c : Catalog) (table : String) (quals : List Qualifier) : Except Error Stream := do
  let vt ← c.lookup table
  match vt.kind with
  | .dynamic => return c.rowStream (selectStatement c.schema vt.name (c.style.render quals))
  | .rawQuery => (queryText vt quals).map c.rawStream

/-- Pushes the rows that answer a request into a sink. The calls it took come along. -/
def list (c : Catalog) (table : String) (quals : List Qualifier) (sink : List Record → Bool) :
    Listing × List Call :=
  match c.stream table quals with
  | .error e => (⟨[], some e, 0⟩, [])
  | .ok stream => (Listing.run sink [] stream.deliveries, [stream.call])

end Catalog

end Pushdown
