import Pushdown.Proofs.Catalog.Statement

/-!
# Building a catalog

Three things can keep a catalog from being built, and they are looked at in a fixed order: an
address, a schema name that may stand in a statement, and the source. `Built` says which of them
counts and which calls were made by then. Behind that the source is never asked for relations again:
`conversation` answers whatever is asked of a catalog, and `Keeps` says that it stays as it was
built. Main statement: building comes to what `Built` says, and a catalog that was built keeps its
tables, its schema and its address (`build_built`).
-/

namespace Pushdown

/-! ## What settings come to -/

namespace Settings

/-- A text that is there and not empty. -/
def Given (place : Option String) (text : String) : Prop :=
  place = some text ∧ text ≠ ""

/-- A place with no text in it, or with the empty one. -/
def Blank (place : Option String) : Prop :=
  ∀ text, ¬ Given place text

/-- The address that settings come to in an environment. -/
inductive Address (s : Settings) (environment : Option String) : String → Prop
  | own {url : String} : Given s.url url → Address s environment url
  | fallback {url : String} : Blank s.url → Given environment url → Address s environment url

/-- The schema that settings come to. -/
inductive Schema (s : Settings) : String → Prop
  | own {schema : String} : Given s.schema schema → Schema s schema
  | default : Blank s.schema → Schema s "public"

/-- A name that may stand in a statement as it is. -/
structure Bare (name : String) : Prop where
  nonempty : name ≠ ""
  chars : ∀ c ∈ name.toList, c.isAlpha ∨ c.isDigit ∨ c = '_' ∨ c = '$'
  first : ∀ c, name.toList.head? = some c → ¬ c.isDigit

theorem nonEmpty?_eq_some_iff {place : Option String} {text : String} :
    nonEmpty? place = some text ↔ Given place text := by
  unfold Given
  cases place with
  | none => simp [nonEmpty?]
  | some s =>
    rw [nonEmpty?]
    split
    · rename_i hempty
      simp only [String.isEmpty_iff] at hempty
      constructor
      · intro h
        cases h
      · rintro ⟨hsame, hne⟩
        rw [← Option.some.inj hsame] at hne
        exact absurd hempty hne
    · rename_i hempty
      simp only [String.isEmpty_iff] at hempty
      constructor
      · intro h
        rw [← Option.some.inj h]
        exact ⟨rfl, hempty⟩
      · rintro ⟨hsame, _⟩
        exact hsame

theorem nonEmpty?_eq_none_iff {place : Option String} : nonEmpty? place = none ↔ Blank place := by
  rw [Option.eq_none_iff_forall_ne_some]
  exact forall_congr' fun text => not_congr nonEmpty?_eq_some_iff

theorem resolvedUrl_eq_ok_iff {s : Settings} {environment : Option String} {url : String} :
    s.resolvedUrl environment = .ok url ↔ Address s environment url := by
  unfold resolvedUrl
  cases hown : nonEmpty? s.url with
  | some own =>
    have hgiven := nonEmpty?_eq_some_iff.mp hown
    constructor
    · intro h
      rw [← Except.ok.inj h]
      exact .own hgiven
    · intro h
      cases h with
      | own h => rw [← Option.some.inj (h.1.symm.trans hgiven.1)]
      | fallback hblank _ => exact absurd hgiven (hblank own)
  | none =>
    have hblank := nonEmpty?_eq_none_iff.mp hown
    dsimp only
    cases henvironment : nonEmpty? environment with
    | some other =>
      have hgiven := nonEmpty?_eq_some_iff.mp henvironment
      constructor
      · intro h
        rw [← Except.ok.inj h]
        exact .fallback hblank hgiven
      · intro h
        cases h with
        | own h => exact absurd h (hblank url)
        | fallback _ h => rw [← Option.some.inj (h.1.symm.trans hgiven.1)]
    | none =>
      constructor
      · intro h
        cases h
      · intro h
        cases h with
        | own h => exact absurd h (hblank url)
        | fallback _ h => exact absurd h (nonEmpty?_eq_none_iff.mp henvironment url)

/-- Without an address there is only one error. -/
theorem resolvedUrl_eq_error {s : Settings} {environment : Option String} {e : SettingsError}
    (h : s.resolvedUrl environment = .error e) :
    e = .missingUrl ∧ ∀ url, ¬ Address s environment url := by
  constructor
  · unfold resolvedUrl at h
    split at h
    · cases h
    · split at h
      · cases h
      · exact (Except.error.inj h).symm
  · intro url haddress
    rw [resolvedUrl_eq_ok_iff.mpr haddress] at h
    cases h

theorem schema_schemaName (s : Settings) : Schema s s.schemaName := by
  unfold schemaName
  cases hown : nonEmpty? s.schema with
  | some schema => exact .own (nonEmpty?_eq_some_iff.mp hown)
  | none => exact .default (nonEmpty?_eq_none_iff.mp hown)

theorem Schema.nonempty {s : Settings} {schema : String} (h : Schema s schema) : schema ≠ "" := by
  cases h with
  | own h => exact h.2
  | default _ => decide

theorem isNameChar_iff {c : Char} :
    Text.isNameChar c = true ↔ c.isAlpha ∨ c.isDigit ∨ c = '_' ∨ c = '$' := by
  simp [Text.isNameChar, Text.isWordChar, Char.isAlphanum, or_assoc]

/-- A schema name is never empty, so the check of its characters says that it is bare. -/
theorem isBareName_iff {name : String} (hne : name ≠ "") : isBareName name = true ↔ Bare name := by
  have hfirst : (!(name.toList.headD ' ').isDigit) = true ↔
      ∀ c, name.toList.head? = some c → ¬ c.isDigit := by
    cases name.toList with
    | nil => simp
    | cons c rest => simp
  rw [isBareName, Bool.and_eq_true, List.all_eq_true, hfirst]
  constructor
  · rintro ⟨hchars, hfirst⟩
    exact ⟨hne, fun c hc => isNameChar_iff.mp (hchars c hc), hfirst⟩
  · intro h
    exact ⟨fun c hc => isNameChar_iff.mpr (h.chars c hc), h.first⟩

/-- The schema name is refused exactly if it is not bare. -/
theorem checkedSchema_eq (s : Settings) :
    (s.checkedSchema = .ok s.schemaName ∧ Bare s.schemaName) ∨
      (s.checkedSchema = .error (.invalidSchema s.schemaName) ∧ ¬ Bare s.schemaName) := by
  rw [checkedSchema, ← isBareName_iff (schema_schemaName s).nonempty]
  split
  · rename_i hbare
    exact .inl ⟨rfl, hbare⟩
  · rename_i hbare
    exact .inr ⟨rfl, hbare⟩

end Settings

/-! ## The order of failures -/

namespace Catalog

/-- A catalog of the relations that were discovered at an address in a schema. -/
structure Discovered (settings : Settings) (url schema : String) (relations : List Relation)
    (c : Catalog) : Prop where
  url : c.url = url
  schema : c.schema = schema
  tables : c.tables = registerTables relations
    (if settings.patterns = [] then ["*"] else settings.patterns)
  style : c.style = .escaped ↔ settings.escapeQuotes = true

/-- What building a catalog comes to, with the calls it takes: an address is looked for first, then
a schema name, and only then the source is asked, once. -/
inductive Built (settings : Settings) (environment : Option String) (source : Source) :
    Traced Catalog → Prop
  | unresolved :
      (∀ url, ¬ settings.Address environment url) →
      Built settings environment source (.error (.settings .missingUrl), [])
  | rejected {url schema : String} :
      settings.Address environment url → settings.Schema schema → ¬ Settings.Bare schema →
      Built settings environment source (.error (.settings (.invalidSchema schema)), [])
  | failed {url schema : String} {e : Error} :
      settings.Address environment url → settings.Schema schema → Settings.Bare schema →
      source.introspect url schema = .error e →
      Built settings environment source (.error e, [.introspect url schema])
  | built {url schema : String} {relations : List Relation} {c : Catalog} :
      settings.Address environment url → settings.Schema schema → Settings.Bare schema →
      source.introspect url schema = .ok relations →
      Discovered settings url schema relations c →
      Built settings environment source (.ok c, [.introspect url schema])

theorem discovered_ofDiscovered (settings : Settings) (url schema : String) (source : Source)
    (relations : List Relation) :
    Discovered settings url schema relations (ofDiscovered settings schema url source relations)
    where
  url := rfl
  schema := rfl
  tables := by
    show registerTables relations settings.shownPatterns = _
    simp [Settings.shownPatterns]
  style := by
    show (if settings.escapeQuotes = true then QuoteStyle.escaped else .verbatim) = .escaped ↔ _
    cases settings.escapeQuotes with
    | true => simp
    | false => simp

theorem built_build (settings : Settings) (environment : Option String) (source : Source) :
    Built settings environment source (build settings environment source) := by
  cases hurl : settings.resolvedUrl environment with
  | error e =>
    obtain ⟨rfl, hnone⟩ := Settings.resolvedUrl_eq_error hurl
    rw [build_of_unresolved hurl]
    exact .unresolved hnone
  | ok url =>
    have haddress := Settings.resolvedUrl_eq_ok_iff.mp hurl
    have hschema := Settings.schema_schemaName settings
    rw [build_of_resolved hurl]
    rcases Settings.checkedSchema_eq settings with ⟨hchecked, hbare⟩ | ⟨hchecked, hbare⟩
    · cases hanswer : source.introspect url settings.schemaName with
      | error e =>
        have hbuild : buildAt settings url source =
            (.error e, [.introspect url settings.schemaName]) := by
          rw [buildAt_of_schema hchecked, hanswer]
          rfl
        rw [hbuild]
        exact .failed haddress hschema hbare hanswer
      | ok relations =>
        have hbuild : buildAt settings url source =
            (.ok (ofDiscovered settings settings.schemaName url source relations),
              [.introspect url settings.schemaName]) :=
          buildAt_eq_ok_iff.mpr ⟨_, _, hchecked, hanswer, rfl, rfl⟩
        rw [hbuild]
        exact .built haddress hschema hbare hanswer
          (discovered_ofDiscovered settings url settings.schemaName source relations)
    · rw [buildAt_of_rejected hchecked]
      exact .rejected haddress hschema hbare

/-! ## Conversations -/

/-- What a host may ask of a catalog: about itself, or for a request. -/
inductive Question where
  | schema
  | tables
  | table (name : String)
  | log
  | request (r : Request)

/-- What a host is told. -/
inductive Told where
  | schema (name : String)
  | tables (tables : Tables)
  | table (table : Option VirtualTable)
  | log (text : String)
  | reply (r : Reply)

/-- Answers a question. The calls it took come along. -/
def ask (c : Catalog) : Question → Told × List Call
  | .schema => (.schema c.schema, [])
  | .tables => (.tables c.tables, [])
  | .table name => (.table (c.table? name), [])
  | .log => (.log c.debugText, [])
  | .request r =>
    let (reply, calls) := c.answer r
    (.reply reply, calls)

/-- Answers questions one after the other, each with the source as it is by then. -/
def conversation (c : Catalog) : List (Source × Question) → List (Told × List Call)
  | [] => []
  | (source, q) :: rest => ask { c with source } q :: conversation c rest

/-- An answer of a catalog that is as it was built: it tells of the same schema and tables, and
calls only for statements at the same address. -/
inductive Keeps (built : Catalog) : Question → Told × List Call → Prop
  | schema : Keeps built .schema (.schema built.schema, [])
  | tables : Keeps built .tables (.tables built.tables, [])
  | table (name : String) :
      Keeps built (.table name) (.table (Ordered.find? name built.tables), [])
  | log : Keeps built .log (.log built.debugText, [])
  | reply (r : Request) {reply : Reply} {calls : List Call} :
      (∀ call ∈ calls, ∃ sql, call = .query built.url sql) →
      Keeps built (.request r) (.reply reply, calls)

/-- An answer that agrees with what is shown calls for nothing but a statement. -/
theorem Agrees.calls {source : Source} {url : String} {shown : Except Error String}
    {purpose : Purpose} {answered : Reply × List Call}
    (h : Agrees source url shown purpose answered) :
    ∀ call ∈ answered.2, ∃ sql, call = .query url sql := by
  intro call hcall
  cases h with
  | streamed sql deliveries => exact ⟨sql, List.mem_singleton.mp hcall⟩
  | listed sql sink deliveries => exact ⟨sql, List.mem_singleton.mp hcall⟩
  | shown | hidden | unstreamed | unlisted => exact absurd hcall List.not_mem_nil

theorem keeps_ask (c : Catalog) (q : Question) : Keeps c q (c.ask q) := by
  cases q with
  | schema => exact .schema
  | tables => exact .tables
  | table name => exact .table name
  | log => exact .log
  | request r => exact .reply r (answer_agrees c r).calls

/-- Whatever is asked, in whatever order, a catalog stays as it is. -/
theorem keeps_conversation (c : Catalog) (steps : List (Source × Question)) :
    List.Forall₂ (fun step told => Keeps c step.2 told) steps (c.conversation steps) := by
  induction steps with
  | nil => exact .nil
  | cons step rest ih =>
    obtain ⟨source, q⟩ := step
    refine .cons ?_ ih
    -- Only the rows depend on what the source has become, not the tables or the address.
    cases keeps_ask { c with source } q with
    | schema => exact .schema
    | tables => exact .tables
    | table name => exact .table name
    | log => exact .log
    | reply r hcalls => exact .reply r hcalls

/-- Building a catalog fails for the first reason there is and takes one call at most, and a catalog
that was built stays as it is and never asks for relations again. -/
theorem build_built (settings : Settings) (environment : Option String) (source : Source) :
    Built settings environment source (build settings environment source) ∧
      ∀ c, (build settings environment source).1 = .ok c → ∀ steps,
        List.Forall₂ (fun step told => Keeps c step.2 told) steps (c.conversation steps) :=
  ⟨built_build settings environment source, fun c _ => keeps_conversation c⟩

/-- A source with one relation, which fails for every statement. -/
def failing : Source where
  introspect := fun _ _ => .ok [⟨"users", none, []⟩]
  query := fun _ sql => [.error (.query sql (.told "gone"))]

/-- Settings with an empty address fall back on the environment, and a request that fails changes
nothing. -/
theorem build_built_fallback :
    let steps : List (Source × Question) :=
      [(failing, .request ⟨"users", [], .list fun _ => true⟩), (failing, .table "users")]
    ∃ c, (build { url := some "" } (some "postgres://db") failing).1 = .ok c ∧
      Built { url := some "" } (some "postgres://db") failing
        (.ok c, [.introspect "postgres://db" "public"]) ∧
      List.Forall₂ (fun step told => Keeps c step.2 told) steps (c.conversation steps) ∧
      (c.table? "users").isSome = true := by
  intro steps
  obtain ⟨hbuilt, hkeeps⟩ := build_built { url := some "" } (some "postgres://db") failing
  exact ⟨_, rfl, hbuilt, hkeeps _ rfl steps, by decide +kernel⟩

end Catalog

end Pushdown
