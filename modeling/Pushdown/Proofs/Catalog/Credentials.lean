import Pushdown.Proofs.Catalog.Building

/-!
# Credentials

The address of a database holds credentials, and nothing but the source is to learn them. Two
catalogs that are built from settings with different addresses are compared, over sources that
answer alike at every address. `Twins` says what the catalogs have in common, and `readdressed` puts
another address into the calls of an answer and leaves the rest of it as it is. Main statement: the
settings look alike in a log, building them fails for the same reason or gives catalogs of which one
answers every question as the other does, and the calls differ in their address only
(`build_conceals`).
-/

namespace Pushdown

/-! ## Answers at another address -/

/-- The call at another address. -/
def Call.readdressed (url : String) : Call → Call
  | .introspect _ schema => .introspect url schema
  | .query _ sql => .query url sql

/-- The stream of the same items, called for at another address. -/
def Stream.readdressed (url : String) (s : Stream) : Stream :=
  { s with call := s.call.readdressed url }

namespace Catalog

/-- The reply, of which a stream is called for at another address. -/
def Reply.readdressed (url : String) : Reply → Reply
  | .stream s => .stream (s.readdressed url)
  | .statement sql => .statement sql
  | .listing l => .listing l
  | .refusal e => .refusal e

/-- What a host is told, of which a stream is called for at another address. -/
def Told.readdressed (url : String) : Told → Told
  | .reply r => .reply (r.readdressed url)
  | .schema name => .schema name
  | .tables all => .tables all
  | .table found => .table found
  | .log text => .log text

/-- An answer with the calls it took, all of them at another address. -/
def readdress (url : String) (answered : Told × List Call) : Told × List Call :=
  (answered.1.readdressed url, answered.2.map (·.readdressed url))

/-! ## Twins -/

/-- Two sources answer alike, whatever address either of them is asked at. -/
structure Alike (a b : Source) : Prop where
  introspect : ∀ url other schema, a.introspect url schema = b.introspect other schema
  query : ∀ url other sql, a.query url sql = b.query other sql

/-- Two catalogs that are the same but for their addresses, on sources that answer alike. -/
structure Twins (c d : Catalog) : Prop where
  tables : c.tables = d.tables
  schema : c.schema = d.schema
  style : c.style = d.style
  source : Alike c.source d.source

variable {c d : Catalog}

theorem Twins.table? (h : Twins c d) (name : String) : c.table? name = d.table? name := by
  unfold Catalog.table?
  rw [h.tables]

/-- Statements are found without the address. -/
theorem Twins.statement (h : Twins c d) (table : String) (quals : List Qualifier) :
    c.statement table quals = d.statement table quals := by
  unfold Catalog.statement Catalog.lookup
  rw [h.table? table, h.schema, h.style]

theorem Twins.rowStream (h : Twins c d) (sql : String) :
    d.rowStream sql = (c.rowStream sql).readdressed d.url := by
  show Stream.mk _ ((d.source.query d.url sql).map (⟨·, 1⟩)) =
    Stream.mk _ ((c.source.query c.url sql).map (⟨·, 1⟩))
  rw [h.source.query c.url d.url]
  rfl

theorem Twins.rawStream (h : Twins c d) (sql : String) :
    d.rawStream sql = (c.rawStream sql).readdressed d.url := by
  show Stream.mk _ [rawDelivery sql (d.source.query d.url sql)] =
    Stream.mk _ [rawDelivery sql (c.source.query c.url sql)]
  rw [h.source.query c.url d.url]
  rfl

/-- Streams hand on the same items and differ in the address that they are called for at. -/
theorem Twins.stream (h : Twins c d) (table : String) (quals : List Qualifier) :
    d.stream table quals = (c.stream table quals).map (·.readdressed d.url) := by
  cases htable : c.table? table with
  | none =>
    rw [stream_of_unknown htable, stream_of_unknown ((h.table? table).symm.trans htable)]
    rfl
  | some vt =>
    rw [stream_of_table htable, stream_of_table ((h.table? table).symm.trans htable)]
    cases vt.kind with
    | dynamic =>
      have hstatement : d.tableStatement vt quals = c.tableStatement vt quals := by
        unfold tableStatement
        rw [h.schema, h.style]
      dsimp only
      rw [hstatement, h.rowStream]
      rfl
    | rawQuery =>
      dsimp only
      cases queryText vt quals with
      | error e => rfl
      | ok sql => exact congrArg Except.ok (h.rawStream sql)

/-- Listings push the same rows, fail alike and pull the same number of items. -/
theorem Twins.list (h : Twins c d) (table : String) (quals : List Qualifier)
    (sink : List Record → Bool) :
    d.list table quals sink =
      ((c.list table quals sink).1,
        (c.list table quals sink).2.map (·.readdressed d.url)) := by
  unfold Catalog.list
  rw [h.stream]
  cases c.stream table quals with
  | error e => rfl
  | ok s => rfl

theorem Twins.answer (h : Twins c d) (r : Request) :
    d.answer r =
      ((c.answer r).1.readdressed d.url, (c.answer r).2.map (·.readdressed d.url)) := by
  obtain ⟨table, quals, purpose⟩ := r
  unfold Catalog.answer
  cases purpose with
  | statement =>
    dsimp only
    rw [h.statement]
    cases d.statement table quals with
    | error e => rfl
    | ok sql => rfl
  | stream =>
    dsimp only
    rw [h.stream]
    cases c.stream table quals with
    | error e => rfl
    | ok s => rfl
  | list sink =>
    dsimp only
    rw [h.list]
    rfl

/-- Whatever is asked, twins differ only in the address of the calls that the answer took. -/
theorem Twins.ask (h : Twins c d) (q : Question) : d.ask q = readdress d.url (c.ask q) := by
  cases q with
  | schema =>
    show (Told.schema d.schema, []) = (Told.schema c.schema, [])
    rw [h.schema]
  | tables =>
    show (Told.tables d.tables, []) = (Told.tables c.tables, [])
    rw [h.tables]
  | table name =>
    show (Told.table (d.table? name), []) = (Told.table (c.table? name), [])
    rw [h.table? name]
  | log =>
    have htext : d.debugText = c.debugText := by
      unfold debugText names
      rw [h.schema, h.tables]
    show (Told.log d.debugText, []) = (Told.log c.debugText, [])
    rw [htext]
  | request r =>
    show (Told.reply (d.answer r).1, (d.answer r).2) = _
    rw [h.answer]
    rfl

/-- Two steps of two conversations: the same question, with sources that answer alike by then. -/
def SameStep (step other : Source × Question) : Prop :=
  Alike step.1 other.1 ∧ step.2 = other.2

/-- Twins stay twins whatever becomes of their sources, so long as these answer alike. -/
theorem Twins.conversation (h : Twins c d) {steps others : List (Source × Question)}
    (hsteps : List.Forall₂ SameStep steps others) :
    d.conversation others = (c.conversation steps).map (readdress d.url) := by
  induction hsteps with
  | nil => rfl
  | @cons step other steps others hstep _ ih =>
    obtain ⟨source, q⟩ := step
    obtain ⟨source', q'⟩ := other
    obtain ⟨halike, hsame⟩ := hstep
    obtain rfl : q = q' := hsame
    have htwins : Twins { c with source } { d with source := source' } :=
      ⟨h.tables, h.schema, h.style, halike⟩
    show Catalog.ask _ q :: _ = readdress d.url (Catalog.ask _ q) :: _
    rw [htwins.ask q, ih]

/-! ## Building at two addresses -/

/-- Two attempts at building a catalog that nobody but the source can tell apart: either both fail
for the same reason, or of the two catalogs one answers every sequence of questions as the other
does. The calls differ in their address only. -/
inductive Concealed (url : String) : Traced Catalog → Traced Catalog → Prop
  | failed (e : Error) (calls : List Call) :
      Concealed url (.error e, calls) (.error e, calls.map (·.readdressed url))
  | built (c d : Catalog) (calls : List Call) :
      (∀ steps others, List.Forall₂ SameStep steps others →
        d.conversation others = (c.conversation steps).map (readdress url)) →
      Concealed url (.ok c, calls) (.ok d, calls.map (·.readdressed url))

theorem concealed_buildAt (s : Settings) (url other : String) {a b : Source} (h : Alike a b) :
    Concealed other (buildAt { s with url := some url } url a)
      (buildAt { s with url := some other } other b) := by
  have hschema : Settings.checkedSchema { s with url := some other } =
      Settings.checkedSchema { s with url := some url } := rfl
  cases hchecked : Settings.checkedSchema { s with url := some url } with
  | error e =>
    rw [buildAt_of_rejected hchecked, buildAt_of_rejected (hschema.trans hchecked)]
    exact .failed _ []
  | ok schema =>
    rw [buildAt_of_schema hchecked, buildAt_of_schema (hschema.trans hchecked),
      ← h.introspect url other schema]
    cases a.introspect url schema with
    | error e => exact .failed e [.introspect url schema]
    | ok relations =>
      have htwins : Twins (ofDiscovered { s with url := some url } schema url a relations)
          (ofDiscovered { s with url := some other } schema other b relations) :=
        ⟨rfl, rfl, rfl, h⟩
      refine .built _ _ [.introspect url schema] ?_
      intro steps others hsteps
      exact htwins.conversation hsteps

/-- Settings with an address of their own are built there, whatever the environment says. -/
theorem build_of_url (s : Settings) {url : String} (hurl : url ≠ "") (environment : Option String)
    (source : Source) :
    build { s with url := some url } environment source =
      buildAt { s with url := some url } url source :=
  build_of_resolved (Settings.resolvedUrl_eq_ok_iff.mpr (.own ⟨rfl, hurl⟩)) source

/-- Settings that differ in their address look alike in a log and in a message, and what is built
from them cannot be told apart by anybody but the source. -/
theorem build_conceals (s : Settings) {url other : String} (hurl : url ≠ "") (hother : other ≠ "")
    {a b : Source} (halike : Alike a b) (environment otherEnvironment : Option String) :
    let mine : Settings := { s with url := some url }
    let yours : Settings := { s with url := some other }
    mine.debugText = yours.debugText ∧ mine.displayText = yours.displayText ∧
      Concealed other (build mine environment a) (build yours otherEnvironment b) := by
  refine ⟨rfl, rfl, ?_⟩
  rw [build_of_url s hurl, build_of_url s hother]
  exact concealed_buildAt s url other halike

/-- Two users of a source that fails for every statement are told the same, failures included. -/
theorem build_conceals_users :
    let steps : List (Source × Question) :=
      [(failing, .log), (failing, .request ⟨"users", [], .list fun _ => true⟩),
        (failing, .request ⟨"orders", [], .stream⟩)]
    ∃ c d, build { url := some "postgres://ann:one@db" } none failing =
        (.ok c, [.introspect "postgres://ann:one@db" "public"]) ∧
      build { url := some "postgres://bob:two@db" } (some "postgres://db") failing =
        (.ok d, [.introspect "postgres://bob:two@db" "public"]) ∧
      d.conversation steps = (c.conversation steps).map (readdress "postgres://bob:two@db") := by
  intro steps
  have halike : Alike failing failing := ⟨fun _ _ _ => rfl, fun _ _ _ => rfl⟩
  obtain ⟨_, _, hconcealed⟩ := @build_conceals {} "postgres://ann:one@db" "postgres://bob:two@db"
    (by decide) (by decide) failing failing halike none (some "postgres://db")
  have hmine : build { url := some "postgres://ann:one@db" } none failing =
      (.ok (ofDiscovered { url := some "postgres://ann:one@db" } "public" "postgres://ann:one@db"
        failing [⟨"users", none, []⟩]), [.introspect "postgres://ann:one@db" "public"]) := rfl
  have hyours : build { url := some "postgres://bob:two@db" } (some "postgres://db") failing =
      (.ok (ofDiscovered { url := some "postgres://bob:two@db" } "public" "postgres://bob:two@db"
        failing [⟨"users", none, []⟩]), [.introspect "postgres://bob:two@db" "public"]) := rfl
  refine ⟨_, _, hmine, hyours, ?_⟩
  rw [hmine, hyours] at hconcealed
  cases hconcealed with
  | built c d calls hanswers =>
    have hsame : List.Forall₂ SameStep steps steps :=
      .cons ⟨halike, rfl⟩ (.cons ⟨halike, rfl⟩ (.cons ⟨halike, rfl⟩ .nil))
    exact hanswers steps steps hsame

end Catalog

end Pushdown
