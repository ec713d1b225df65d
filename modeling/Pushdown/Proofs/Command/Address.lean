import Mathlib
import Pushdown.Command.Run
import Pushdown.Proofs.Catalog.Statement

/-!
# The address of the database

Three places may name the database: the command line, the file of settings and the environment. They
are meant to count in this order, but the environment already fills in for the command line, and
what the command line gives takes the place of the file even if it is empty. `address` says which
one counts. Main statement: the catalog is built at that address, every call of a command goes to
it, and it is the one that is meant to count unless the file's is hidden (`perform_address`).
-/

namespace Pushdown

/-- The address that a call goes to. -/
def Call.url : Call → String
  | .introspect url _ => url
  | .query url _ => url

end Pushdown

namespace Pushdown.Command

/-! ## Which address counts -/

/-- The first address that is there and not empty. -/
def firstAddress : List (Option String) → Option String
  | [] => none
  | place :: rest => (Settings.nonEmpty? place).or (firstAddress rest)

/-- The address that counts. The file is only looked at if neither the command line nor the
environment says anything. -/
def address (flag file environment : Option String) : Option String :=
  match flag.or environment with
  | some _ => firstAddress [flag, environment]
  | none => firstAddress [file]

/-- The address of the file is hidden: an empty one stands on the command line, or there is none and
the environment says something else than the file. -/
def Hidden (flag file environment : Option String) : Prop :=
  Settings.nonEmpty? flag = none ∧ (flag.or environment).isSome ∧
    Settings.nonEmpty? file ≠ none ∧ Settings.nonEmpty? file ≠ Settings.nonEmpty? environment

theorem firstAddress_pair (a b : Option String) :
    firstAddress [a, b] = (Settings.nonEmpty? a).or (Settings.nonEmpty? b) := by
  show (Settings.nonEmpty? a).or ((Settings.nonEmpty? b).or none) = _
  rw [Option.or_none]

theorem firstAddress_single (a : Option String) : firstAddress [a] = Settings.nonEmpty? a :=
  Option.or_none

/-- The places count in the order they are meant to, unless the file's address is hidden. -/
theorem address_eq_firstAddress_iff (flag file environment : Option String) :
    address flag file environment = firstAddress [flag, file, environment] ↔
      ¬ Hidden flag file environment := by
  have hmeant : firstAddress [flag, file, environment] =
      (Settings.nonEmpty? flag).or
        ((Settings.nonEmpty? file).or (Settings.nonEmpty? environment)) := by
    show (Settings.nonEmpty? flag).or (firstAddress [file, environment]) = _
    rw [firstAddress_pair]
  rw [hmeant]
  unfold address Hidden
  cases hgiven : flag.or environment with
  | none =>
    obtain ⟨rfl, rfl⟩ := Option.or_eq_none_iff.mp hgiven
    dsimp only
    rw [firstAddress_single]
    show _ = (Settings.nonEmpty? file).or none ↔ _
    simp
  | some given =>
    dsimp only
    rw [firstAddress_pair]
    cases hflag : Settings.nonEmpty? flag with
    | some url => simp
    | none =>
      cases hfile : Settings.nonEmpty? file with
      | none => simp
      | some url => simp [eq_comm]

/-! ## Reading the command line -/

/-- A command line in an environment, which fills in for an address that is not given. -/
def Invocation.under (environment : Option String) : Invocation → Invocation
  | .version => .version
  | .run options action => .run { options with url := options.url.or environment } action

/-- The environment changes nothing else about what a command line asks for. -/
theorem read?_environment (environment : Option String) (arguments : List String) :
    Invocation.read? environment arguments =
      (Invocation.read? none arguments).map (·.under environment) := by
  unfold Invocation.read?
  cases readWords? none {} arguments with
  | none => rfl
  | some progress =>
    cases progress with
    | version => rfl
    | finished _ => rfl
    | verb front verb rest =>
      show ((readWords? (some verb) {} rest).bind _) =
        ((readWords? (some verb) {} rest).bind _).map _
      cases readWords? (some verb) {} rest with
      | none => rfl
      | some progress =>
        cases progress with
        | version => rfl
        | verb _ _ _ => rfl
        | finished behind =>
          -- The environment only comes in here, where the options of both levels are put together.
          show ((Action.ofGiven? verb behind).bind _) = ((Action.ofGiven? verb behind).bind _).map _
          cases Action.ofGiven? verb behind with
          | none => rfl
          | some action =>
            obtain ⟨_, behindUrl, _⟩ := behind
            obtain ⟨_, frontUrl, _⟩ := front
            cases behindUrl <;> cases frontUrl <;> rfl

/-- Options that name a file of settings and nothing else. -/
def Options.fileOnly (config : Option String) : Options :=
  ⟨config, none, none, []⟩

/-- The settings of options are those of their file under the options. -/
theorem loadSettings_of_file {files : Files} {options : Options} {file : Settings}
    (h : loadSettings files (.fileOnly options.config) = .ok file) :
    loadSettings files options = .ok (options.apply file) := by
  obtain ⟨config, url, schema, patterns⟩ := options
  unfold loadSettings at h ⊢
  cases config with
  | none =>
    obtain rfl := Except.ok.inj h
    rfl
  | some path =>
    dsimp only [Options.fileOnly] at h ⊢
    cases hread : readSettings files path with
    | error e =>
      rw [hread] at h
      cases h
    | ok s =>
      rw [hread] at h
      obtain rfl := Except.ok.inj h
      rfl

/-- An address that was found, or the failure that there is none. -/
def orMissing : Option String → Except SettingsError String
  | some url => .ok url
  | none => .error .missingUrl

theorem resolvedUrl_eq (s : Settings) (environment : Option String) :
    s.resolvedUrl environment = orMissing (firstAddress [s.url, environment]) := by
  rw [firstAddress_pair]
  unfold Settings.resolvedUrl
  cases Settings.nonEmpty? s.url with
  | some url => rfl
  | none =>
    cases Settings.nonEmpty? environment with
    | some url => rfl
    | none => rfl

/-- In settings under the options of a command line the address that counts comes first. -/
theorem firstAddress_apply (given : Options) (file : Settings) (environment : Option String) :
    firstAddress
        [(Options.apply { given with url := given.url.or environment } file).url, environment] =
      address given.url file.url environment := by
  obtain ⟨config, flag, schema, patterns⟩ := given
  cases flag with
  | some flag => rfl
  | none =>
    cases environment with
    | some url =>
      -- The variable stands for the command line and is asked once more behind it.
      show firstAddress [some url, some url] = firstAddress [none, some url]
      rw [firstAddress_pair, Option.or_self]
      exact (firstAddress_single (some url)).symm
    | none =>
      show firstAddress [file.url, none] = firstAddress [file.url]
      rw [firstAddress_pair, firstAddress_single]
      exact Option.or_none

/-! ## Calls -/

theorem url_of_mem_list {c : Catalog} {table : String} {quals : List Qualifier}
    {sink : List Record → Bool} {call : Call} (h : call ∈ (c.list table quals sink).2) :
    call.url = c.url := by
  cases hshown : c.statement table quals with
  | ok sql =>
    rw [Catalog.calls_of_statement hshown, List.mem_singleton] at h
    rw [h]
    rfl
  | error e =>
    rw [Catalog.list_of_refused hshown] at h
    cases h

/-- The calls of an action go to the address of its catalog. -/
theorem url_of_mem_perform {c : Catalog} {action : Action} {call : Call}
    (h : call ∈ (action.perform c).calls) : call.url = c.url := by
  cases action with
  | tables => cases h
  | describe table =>
    change call ∈ (describeTable c table).calls at h
    unfold describeTable at h
    split at h
    · cases h
    · cases h
  | list table filters limit =>
    change call ∈ (listRows c table filters limit).calls at h
    unfold listRows at h
    split at h
    · cases h
    · exact url_of_mem_list h
  | sql table filters =>
    change call ∈ (showSql c table filters).calls at h
    unfold showSql at h
    split at h
    · cases h
    · split at h
      · cases h
      · cases h
  | raw query =>
    change call ∈ (forward c query).calls at h
    unfold forward at h
    dsimp only at h
    split at h
    · exact url_of_mem_list h
    · exact url_of_mem_list h
    · exact url_of_mem_list h

theorem url_of_mem_buildAt {settings : Settings} {url : String} {source : Source} {call : Call}
    (h : call ∈ (Catalog.buildAt settings url source).2) : call.url = url := by
  rcases Catalog.calls_buildAt settings url source with hnone | ⟨schema, hone⟩
  · rw [hnone] at h
    cases h
  · rw [hone] at h
    rw [List.mem_singleton.mp h]
    rfl

/-- All calls of a command go to the address that its settings resolve to. -/
theorem resolvedUrl_of_mem_runWith {source : Source} {environment : Option String}
    {settings : Settings} {action : Action} {call : Call}
    (h : call ∈ (runWith source environment settings action).calls) :
    settings.resolvedUrl environment = .ok call.url := by
  unfold runWith at h
  cases hurl : settings.resolvedUrl environment with
  | error e =>
    rw [Catalog.build_of_unresolved hurl] at h
    cases h
  | ok url =>
    have hcalls := @url_of_mem_buildAt settings url source call
    rw [Catalog.build_of_resolved hurl] at h
    cases hbuilt : Catalog.buildAt settings url source with
    | mk built calls =>
      rw [hbuilt] at h hcalls
      cases built with
      | error e => rw [hcalls h]
      | ok c =>
        rcases List.mem_append.mp h with hbuild | haction
        · rw [hcalls hbuild]
        · rw [url_of_mem_perform haction, (Catalog.buildAt_eq_ok hbuilt).1]

/-- The catalog of a command line is built at the address that counts, or not at all if there is
none, and every call goes there. It is the first that is there and not empty among the command line,
the file and the environment, unless the file's address is hidden. -/
theorem perform_address {arguments : List String} {files : Files} {given : Options}
    {action : Action} {file : Settings}
    (hread : Invocation.read? none arguments = some (.run given action))
    (hfile : loadSettings files (.fileOnly given.config) = .ok file)
    (environment : Option String) :
    let used := address given.url file.url environment
    (used = firstAddress [given.url, file.url, environment] ↔
      ¬ Hidden given.url file.url environment) ∧
    ∃ options settings, Invocation.read? environment arguments = some (.run options action) ∧
      loadSettings files options = .ok settings ∧
      ∀ source : Source,
        (Catalog.build settings environment source =
          match used with
          | some url => Catalog.buildAt settings url source
          | none => (.error (.settings .missingUrl), [])) ∧
        ∀ call ∈ ((Invocation.run options action).perform files source environment).calls,
          used = some call.url := by
  intro used
  refine ⟨address_eq_firstAddress_iff given.url file.url environment,
    { given with url := given.url.or environment }, _, ?_, loadSettings_of_file hfile, ?_⟩
  · rw [read?_environment, hread]
    rfl
  intro source
  -- What the settings resolve to decides both where the catalog is built and where the calls go.
  have hresolved : (Options.apply { given with url := given.url.or environment } file).resolvedUrl
      environment = orMissing used := by
    rw [resolvedUrl_eq, firstAddress_apply]
  constructor
  · cases hused : used with
    | some url =>
      rw [hused] at hresolved
      exact Catalog.build_of_resolved hresolved source
    | none =>
      rw [hused] at hresolved
      exact Catalog.build_of_unresolved hresolved source
  · intro call hcall
    have hload : loadSettings files { given with url := given.url.or environment } =
        .ok (Options.apply { given with url := given.url.or environment } file) :=
      loadSettings_of_file hfile
    rw [perform_of_settings hload] at hcall
    have hcalled := resolvedUrl_of_mem_runWith hcall
    rw [hresolved] at hcalled
    cases hused : used with
    | some url =>
      rw [hused] at hcalled
      exact congrArg some (Except.ok.inj hcalled)
    | none =>
      rw [hused] at hcalled
      cases hcalled

/-- A file of settings that names the database. -/
def namingFile : Files := fun path =>
  if path = "vista.yaml" then .ok "connection_string: postgres://db\n" else .error .notFound

/-- The arguments that name the file. -/
def namingArguments : List String :=
  ["-c", "vista.yaml", "tables"]

/-- With another variable the catalog is built at its address instead of the one in the file. -/
theorem perform_address_overridden :
    ∃ given action file, Invocation.read? none namingArguments = some (.run given action) ∧
      loadSettings namingFile (.fileOnly given.config) = .ok file ∧
      Hidden given.url file.url (some "postgres://other") ∧
      ∃ options settings,
        Invocation.read? (some "postgres://other") namingArguments = some (.run options action) ∧
        loadSettings namingFile options = .ok settings ∧
        ∀ source, Catalog.build settings (some "postgres://other") source =
          Catalog.buildAt settings "postgres://other" source := by
  have hread : Invocation.read? none namingArguments =
      some (.run ⟨some "vista.yaml", none, none, []⟩ .tables) := by decide +kernel
  have hfile : loadSettings namingFile (.fileOnly (some "vista.yaml")) =
      .ok { url := some "postgres://db" } := by decide +kernel
  obtain ⟨_, options, settings, hoptions, hsettings, hsource⟩ :=
    perform_address hread hfile (some "postgres://other")
  refine ⟨_, _, _, hread, hfile, ?_, options, settings, hoptions, hsettings, ?_⟩
  · exact ⟨rfl, rfl, by decide, by decide⟩
  · intro source
    exact (hsource source).1

/-- The database that the file names is hidden by an empty variable, so the catalog is not built. -/
theorem build_hidden_by_empty_variable :
    ∃ given action file, Invocation.read? none namingArguments = some (.run given action) ∧
      loadSettings namingFile (.fileOnly given.config) = .ok file ∧
      firstAddress [given.url, file.url, some ""] = some "postgres://db" ∧
      ∃ options settings, Invocation.read? (some "") namingArguments = some (.run options action) ∧
        loadSettings namingFile options = .ok settings ∧
        ∀ source, Catalog.build settings (some "") source =
          (.error (.settings .missingUrl), []) := by
  refine ⟨⟨some "vista.yaml", none, none, []⟩, .tables, { url := some "postgres://db" },
    by decide +kernel, by decide +kernel, by decide, ⟨some "vista.yaml", some "", none, []⟩,
    { url := some "" }, by decide +kernel, by decide +kernel, ?_⟩
  intro source
  rfl

end Pushdown.Command
