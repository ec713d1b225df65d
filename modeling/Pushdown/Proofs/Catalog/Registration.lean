import Mathlib
import Pushdown.Catalog
import Pushdown.Proofs.Ordered

/-!
# Registration

Which virtual tables a catalog gets. Registration goes through the patterns and through the
relations for each of them, and never replaces an entry; `find?_registerMatches` and
`find?_registerGlobs` say what this comes to for one pattern and for all. Main statement: the tables
are exactly those that `Registered` names, so only the valid patterns matter, in any order and
however often they stand (`registerTables_registered`).
-/

namespace Pushdown

/-! ## What is registered -/

/-- One of the patterns that texts spell accepts a name. Texts that are no patterns do not count. -/
def Claimed (globs : List String) (name : String) : Prop :=
  ∃ glob ∈ globs, ∃ p, Pattern.read glob = .ok p ∧ p.accepts name = true

/-- The tables of discovered relations under patterns: under each claimed name the first relation of
that name, and always the raw-query table, which no relation of its name survives. -/
structure Registered (discovered : List Relation) (globs : List String) (tables : Tables) :
    Prop where
  rising : Ordered.Rising tables
  rawQuery : Ordered.find? rawQueryName tables = some (VirtualTable.rawQuery rawQueryName)
  relation : ∀ name table, name ≠ rawQueryName →
    (Ordered.find? name tables = some table ↔
      Claimed globs name ∧
        ∃ r, discovered.find? (·.name = name) = some r ∧ VirtualTable.synthesize r = table)
  hidden : ∀ r, r.name = rawQueryName → ∀ name, (name, VirtualTable.synthesize r) ∉ tables

/-- Two lists of texts that spell the same patterns, in any order and with any repetitions. -/
def SamePatterns (globs others : List String) : Prop :=
  ∀ glob p, Pattern.read glob = .ok p → (glob ∈ globs ↔ glob ∈ others)

/-! ## One pattern -/

/-- The table of the first relation of a name, where a pattern accepts the name. -/
def firstClaimed (accepted : Bool) (discovered : List Relation) (name : String) :
    Option VirtualTable :=
  if accepted then (discovered.find? (·.name = name)).map VirtualTable.synthesize else none

theorem firstClaimed_cons_of_ne {accepted : Bool} {r : Relation} {discovered : List Relation}
    {name : String} (h : r.name ≠ name) :
    firstClaimed accepted (r :: discovered) name = firstClaimed accepted discovered name := by
  rw [firstClaimed, List.find?_cons_of_neg (by simpa using h), firstClaimed]

/-- One pattern leaves the entries that are there and adds those of the relations it accepts. -/
theorem find?_registerMatches (pattern : Pattern) (discovered : List Relation) (tables : Tables)
    (name : String) :
    Ordered.find? name (registerMatches pattern discovered tables) =
      (Ordered.find? name tables).or (firstClaimed (pattern.accepts name) discovered name) := by
  induction discovered generalizing tables with
  | nil => simp [registerMatches, firstClaimed]
  | cons r discovered ih =>
    rw [registerMatches, List.foldl_cons]
    refine (ih _).trans ?_
    split
    · -- The relation adds nothing: its name is taken or it is not accepted.
      rename_i hkept
      by_cases hname : r.name = name
      · subst hname
        rw [Bool.or_eq_true, Option.isSome_iff_exists, Bool.not_eq_true'] at hkept
        rcases hkept with ⟨table, htable⟩ | haccepts
        · rw [htable, Option.some_or, Option.some_or]
        · rw [haccepts]
          rfl
      · rw [firstClaimed_cons_of_ne hname]
    · -- The relation is added, so it is the first of its name and later ones are not looked at.
      rename_i hadded
      rw [Bool.or_eq_true, not_or, Bool.not_eq_true, Option.isSome_eq_false_iff,
        Option.isNone_iff_eq_none, Bool.not_eq_true', Bool.not_eq_false] at hadded
      obtain ⟨habsent, haccepts⟩ := hadded
      rw [Ordered.find?_insert]
      by_cases hname : name = r.name
      · subst hname
        rw [if_pos rfl, habsent, haccepts]
        simp [firstClaimed]
      · rw [if_neg hname, firstClaimed_cons_of_ne (Ne.symm hname)]

theorem rising_registerMatches (pattern : Pattern) (discovered : List Relation) {tables : Tables}
    (h : Ordered.Rising tables) : Ordered.Rising (registerMatches pattern discovered tables) := by
  induction discovered generalizing tables with
  | nil => exact h
  | cons r discovered ih =>
    rw [registerMatches, List.foldl_cons]
    apply ih
    split
    · exact h
    · exact Ordered.rising_insert _ _ h

/-! ## All patterns -/

/-- Whether a text spells a pattern that accepts a name. -/
def claimedBy (name glob : String) : Bool :=
  match Pattern.read glob with
  | .ok p => p.accepts name
  | .error _ => false

theorem any_claimedBy_iff {globs : List String} {name : String} :
    globs.any (claimedBy name) = true ↔ Claimed globs name := by
  rw [List.any_eq_true, Claimed]
  refine exists_congr fun glob => and_congr_right fun _ => ?_
  rw [claimedBy]
  cases Pattern.read glob with
  | ok p => simp
  | error e => simp

theorem find?_registerGlob (discovered : List Relation) (tables : Tables) (glob name : String) :
    Ordered.find? name (registerGlob discovered tables glob) =
      (Ordered.find? name tables).or (firstClaimed (claimedBy name glob) discovered name) := by
  rw [registerGlob, claimedBy]
  cases Pattern.read glob with
  | ok p => exact find?_registerMatches p discovered tables name
  | error e => exact (Option.or_none).symm

/-- All patterns together add the relations that one of them accepts. -/
theorem find?_registerGlobs (discovered : List Relation) (globs : List String) (tables : Tables)
    (name : String) :
    Ordered.find? name (globs.foldl (registerGlob discovered) tables) =
      (Ordered.find? name tables).or (firstClaimed (globs.any (claimedBy name)) discovered name) := by
  induction globs generalizing tables with
  | nil => exact (Option.or_none).symm
  | cons glob globs ih =>
    rw [List.foldl_cons, ih, find?_registerGlob, Option.or_assoc, List.any_cons]
    congr 1
    cases claimedBy name glob with
    | false => rfl
    | true =>
      cases hglobs : globs.any (claimedBy name) with
      | false => exact Option.or_none
      | true => exact Option.or_self

theorem rising_registerGlobs (discovered : List Relation) (globs : List String) {tables : Tables}
    (h : Ordered.Rising tables) :
    Ordered.Rising (globs.foldl (registerGlob discovered) tables) := by
  induction globs generalizing tables with
  | nil => exact h
  | cons glob globs ih =>
    apply ih
    rw [registerGlob]
    split
    · exact rising_registerMatches _ _ h
    · exact h

/-! ## The tables of a catalog -/

theorem rising_registerTables (discovered : List Relation) (globs : List String) :
    Ordered.Rising (registerTables discovered globs) :=
  Ordered.rising_insert _ _ (rising_registerGlobs discovered globs List.Pairwise.nil)

theorem find?_registerTables (discovered : List Relation) (globs : List String) (name : String) :
    Ordered.find? name (registerTables discovered globs) =
      if name = rawQueryName then some (VirtualTable.rawQuery rawQueryName)
      else firstClaimed (globs.any (claimedBy name)) discovered name := by
  rw [registerTables, Ordered.find?_insert, find?_registerGlobs]
  rfl

theorem registered_registerTables (discovered : List Relation) (globs : List String) :
    Registered discovered globs (registerTables discovered globs) where
  rising := rising_registerTables discovered globs
  rawQuery := by rw [find?_registerTables, if_pos rfl]
  relation := by
    intro name table hname
    rw [find?_registerTables, if_neg hname, firstClaimed, ← any_claimedBy_iff]
    split
    · rename_i hclaimed
      rw [Option.map_eq_some_iff, and_iff_right hclaimed]
    · rename_i hclaimed
      constructor
      · intro habsent
        cases habsent
      · rintro ⟨hclaimed', _⟩
        exact absurd hclaimed' hclaimed
  hidden := by
    intro r hr name hmem
    rw [Ordered.mem_iff_find? (rising_registerTables discovered globs), find?_registerTables]
      at hmem
    split at hmem
    · have hkind := congrArg VirtualTable.kind (Option.some.inj hmem)
      cases hkind
    · rename_i hname
      rw [firstClaimed] at hmem
      split at hmem
      · -- An equal table would have an equal name, but relations are found under their own.
        obtain ⟨first, hfirst, hsame⟩ := Option.map_eq_some_iff.mp hmem
        have hfound : first.name = name := by simpa using List.find?_some hfirst
        have hboth : first.name = r.name := congrArg VirtualTable.name hsame
        exact hname (hfound.symm.trans (hboth.trans hr))
      · cases hmem

/-- Nothing else is registered: what is registered determines the tables. -/
theorem Registered.unique {discovered : List Relation} {globs : List String} {a b : Tables}
    (ha : Registered discovered globs a) (hb : Registered discovered globs b) : a = b := by
  refine Ordered.eq_of_find?_eq ha.rising hb.rising fun name => ?_
  by_cases hname : name = rawQueryName
  · rw [hname, ha.rawQuery, hb.rawQuery]
  · apply Option.ext
    intro table
    rw [ha.relation name table hname, hb.relation name table hname]

theorem SamePatterns.claimed_iff {globs others : List String} (h : SamePatterns globs others)
    (name : String) : Claimed globs name ↔ Claimed others name := by
  constructor
  · rintro ⟨glob, hglob, p, hread, haccepts⟩
    exact ⟨glob, (h glob p hread).mp hglob, p, hread, haccepts⟩
  · rintro ⟨glob, hglob, p, hread, haccepts⟩
    exact ⟨glob, (h glob p hread).mpr hglob, p, hread, haccepts⟩

/-- A catalog has exactly the tables that are registered, and any other list of texts that spells
the same patterns gives the same tables. -/
theorem registerTables_registered (discovered : List Relation) (globs : List String) :
    Registered discovered globs (registerTables discovered globs) ∧
      ∀ others, SamePatterns globs others →
        registerTables discovered others = registerTables discovered globs := by
  refine ⟨registered_registerTables discovered globs, ?_⟩
  intro others hsame
  have hothers := registered_registerTables discovered others
  have hglobs : Registered discovered globs (registerTables discovered others) := by
    refine ⟨hothers.rising, hothers.rawQuery, ?_, hothers.hidden⟩
    intro name table hname
    rw [hsame.claimed_iff name]
    exact hothers.relation name table hname
  exact hglobs.unique (registered_registerTables discovered globs)

end Pushdown
