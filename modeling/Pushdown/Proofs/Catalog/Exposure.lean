import Pushdown.Proofs.Catalog.Registration
import Pushdown.Proofs.Pattern.Pieces

/-!
# What is shown by default

Settings without patterns are meant to show every table. The pattern that stands in for the missing
ones is a single star, and a star takes no slash (`splits_star_iff`), so a quoted name with a slash
in it is left out. Main statement: under settings without patterns a discovered relation has a table
just if there is no slash in its name, and the table is that of the first relation of the name
(`shownPatterns_exposes`).
-/

namespace Pushdown

/-! ## The single star -/

namespace Pattern

/-- A single star takes every name without a slash. -/
theorem splits_star_iff {name : List Char} : Splits [.anyRun] name ↔ '/' ∉ name := by
  rw [splits_cons_iff]
  constructor
  · rintro ⟨piece, tail, rfl, hpiece, htail⟩ hslash
    rw [splits_nil_iff.mp htail, List.append_nil] at hslash
    exact hpiece '/' hslash rfl
  · intro hslash
    refine ⟨name, [], (List.append_nil name).symm, ?_, splits_nil_iff.mpr rfl⟩
    rintro c hc rfl
    exact hslash hc

theorem read_star : Pattern.read "*" = .ok ⟨"*", regexOf [.anyRun]⟩ :=
  read_eq_ok_iff.mpr ⟨[.anyRun], .anyRun .nil, rfl⟩

theorem accepts_star_iff (name : String) :
    (⟨"*", regexOf [.anyRun]⟩ : Pattern).accepts name = true ↔ '/' ∉ name.toList :=
  accepts_regexOf_iff.trans splits_star_iff

end Pattern

/-! ## Settings without patterns -/

/-- A map has a table under a name. -/
def Exposed (tables : Tables) (name : String) : Prop :=
  ∃ table, Ordered.find? name tables = some table

theorem shownPatterns_of_empty {settings : Settings} (h : settings.patterns = []) :
    settings.shownPatterns = ["*"] := by
  unfold Settings.shownPatterns
  simp [h]

/-- The star alone claims the names without a slash. -/
theorem claimed_star_iff (name : String) : Claimed ["*"] name ↔ '/' ∉ name.toList := by
  rw [← Pattern.accepts_star_iff]
  constructor
  · rintro ⟨glob, hglob, p, hread, haccepts⟩
    obtain rfl := List.mem_singleton.mp hglob
    rw [Pattern.read_star] at hread
    obtain rfl := Except.ok.inj hread
    exact haccepts
  · intro haccepts
    exact ⟨"*", List.mem_singleton_self "*", _, Pattern.read_star, haccepts⟩

/-- Under settings without patterns a discovered relation has a table just if there is no slash in
its name. Unless it has the name of the raw-query table, that is the table of the first relation of
its name. -/
theorem shownPatterns_exposes {settings : Settings} (hdefault : settings.patterns = [])
    (discovered : List Relation) :
    let tables := registerTables discovered settings.shownPatterns
    ∀ r ∈ discovered, (Exposed tables r.name ↔ '/' ∉ r.name.toList) ∧
      ∀ table, r.name ≠ rawQueryName → Ordered.find? r.name tables = some table →
        ∃ first, discovered.find? (·.name = r.name) = some first ∧
          VirtualTable.synthesize first = table := by
  intro tables r hr
  have htables : Registered discovered ["*"] tables := by
    rw [← shownPatterns_of_empty hdefault]
    exact registered_registerTables discovered settings.shownPatterns
  by_cases hraw : r.name = rawQueryName
  · -- The raw-query table is always there, and its name has no slash.
    rw [hraw]
    refine ⟨⟨fun _ => by decide, fun _ => ⟨_, htables.rawQuery⟩⟩, ?_⟩
    intro table hne
    exact absurd rfl hne
  · refine ⟨?_, fun table _ htable => ((htables.relation r.name table hraw).mp htable).2⟩
    rw [← claimed_star_iff]
    constructor
    · rintro ⟨table, htable⟩
      exact ((htables.relation r.name table hraw).mp htable).1
    · intro hclaimed
      have hfound : (discovered.find? (·.name = r.name)).isSome := by
        rw [List.find?_isSome]
        exact ⟨r, hr, by simp⟩
      obtain ⟨first, hfirst⟩ := Option.isSome_iff_exists.mp hfound
      exact ⟨_, (htables.relation r.name _ hraw).mpr ⟨hclaimed, first, hfirst, rfl⟩⟩

/-- Relations of quoted names, one with a slash and two with all sorts of other characters. -/
def quotedNames : List Relation :=
  [⟨"in/out", none, []⟩, ⟨"a \"b\"\n*\\", none, []⟩, ⟨"Größe;", none, []⟩]

/-- Blanks, quotes, line breaks, stars and backslashes in a name do not matter. -/
theorem exposed_quoted :
    Settings.patterns {} = [] ∧
      Exposed (registerTables quotedNames (Settings.shownPatterns {})) "a \"b\"\n*\\" := by
  have hpatterns : Settings.patterns {} = [] := rfl
  have hmem : (⟨"a \"b\"\n*\\", none, []⟩ : Relation) ∈ quotedNames := by simp [quotedNames]
  exact ⟨hpatterns, (shownPatterns_exposes hpatterns quotedNames _ hmem).1.mpr (by decide)⟩

/-- A relation with a slash in its name is hidden although no patterns are set. -/
theorem slash_hidden :
    Settings.patterns {} = [] ∧ ∃ r ∈ quotedNames,
      ¬ Exposed (registerTables quotedNames (Settings.shownPatterns {})) r.name := by
  refine ⟨rfl, ⟨"in/out", none, []⟩, List.mem_cons_self, ?_⟩
  rintro ⟨table, htable⟩
  have hnone : Ordered.find? "in/out"
      (registerTables quotedNames (Settings.shownPatterns {})) = none := by decide +kernel
  rw [hnone] at htable
  cases htable

end Pushdown
