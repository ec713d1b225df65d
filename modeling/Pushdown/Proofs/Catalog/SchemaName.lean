import Mathlib
import Pushdown.Proofs.Catalog.Building
import Pushdown.Proofs.Sql.Name

/-!
# The schema that is read

The name of the schema is handed to the introspection as it is, and stands in statements without
quotes. It is checked character by character, which leaves names that the database reads as
something else: a name with ASCII capitals is read in small letters, and one that starts with a
dollar sign is not read as a name at all. Main statement: these are the only names that pass the
check and are read otherwise than they were introspected (`schema_reads`).
-/

namespace Pushdown

namespace Settings

/-- A schema name that passes the check is bare. -/
theorem bare_of_checkedSchema {s : Settings} {schema : String}
    (h : s.checkedSchema = .ok schema) : Bare schema := by
  rcases checkedSchema_eq s with ⟨hchecked, hbare⟩ | ⟨hchecked, _⟩
  · rw [hchecked] at h
    rwa [← Except.ok.inj h]
  · rw [hchecked] at h
    cases h

/-- The characters of a bare name are those that a word goes on with. -/
theorem Bare.isWordPart {name : String} (h : Bare name) :
    ∀ c ∈ name.toList, Sql.isWordPart c = true := by
  intro c hc
  rcases h.chars c hc with halpha | hdigit | rfl | rfl
  · simp [Sql.isWordPart, Sql.isLetter, halpha]
  · simp [Sql.isWordPart, hdigit]
  · rfl
  · rfl

/-- A bare name starts as a word does, or with a dollar sign. -/
theorem Bare.isLetter_iff {name : String} (h : Bare name) {c : Char}
    (hc : name.toList.head? = some c) : Sql.isLetter c = true ↔ c ≠ '$' := by
  have hfirst := h.first c hc
  rcases h.chars c (List.mem_of_mem_head? hc) with halpha | hdigit | rfl | rfl
  · refine iff_of_true (by simp [Sql.isLetter, halpha]) ?_
    rintro rfl
    cases halpha
  · exact absurd hdigit hfirst
  · decide
  · decide

/-- A bare name is a word unless it starts with a dollar sign. -/
theorem Bare.isWord_iff {name : String} (h : Bare name) :
    Sql.isWord name.toList = true ↔ name.toList.head? ≠ some '$' := by
  have hparts := h.isWordPart
  cases hname : name.toList with
  | nil => exact absurd (by simpa using hname) h.nonempty
  | cons c word =>
    rw [hname] at hparts
    have hword : word.all Sql.isWordPart = true :=
      List.all_eq_true.mpr fun d hd => hparts d (List.mem_cons_of_mem c hd)
    rw [Sql.isWord, hword, Bool.and_true, h.isLetter_iff (by rw [hname]; rfl), List.head?_cons,
      ne_eq, ne_eq, Option.some.injEq]

end Settings

namespace Catalog

/-- How the database reads a bare name that stands in front of a table. -/
theorem schema?_of_bare {schema : String} (h : Settings.Bare schema) (table condition : String) :
    Sql.schema? (selectStatement schema table condition) =
      if schema.toList.head? = some '$' then none
      else some (String.ofList (Text.lower schema.toList)) := by
  split
  · rename_i hdollar
    exact Sql.schema?_eq_none table condition hdollar rfl
  · rename_i hdollar
    exact Sql.schema?_selectStatement table condition (h.isWord_iff.mpr hdollar)

/-- With a schema name that passes the check, the introspection is asked for that name and every
statement for a dynamic table has it in front of the table. There the database reads it in small
letters, or as no name if it starts with a dollar sign, so it is the schema that was introspected
just if the name has no dollar sign at its start and no capitals. -/
theorem schema_reads {settings : Settings} {schema : String}
    (h : settings.checkedSchema = .ok schema) (url : String) (source : Source) :
    (buildAt settings url source).2 = [.introspect url schema] ∧
      (∀ c calls, buildAt settings url source = (.ok c, calls) →
        ∀ table vt, c.table? table = some vt → vt.kind = .dynamic → ∀ quals,
          ∃ condition, c.statement table quals = .ok (selectStatement schema vt.name condition)) ∧
      ∀ table condition,
        Sql.schema? (selectStatement schema table condition) =
            (if schema.toList.head? = some '$' then none
              else some (String.ofList (Text.lower schema.toList))) ∧
          (Sql.schema? (selectStatement schema table condition) = some schema ↔
            schema.toList.head? ≠ some '$' ∧ ∀ c ∈ schema.toList, c.isUpper = false) := by
  refine ⟨?_, ?_, ?_⟩
  · rw [buildAt_of_schema h]
  · intro c calls hbuilt table vt htable hkind quals
    -- The name in the catalog is the one that passed the check.
    obtain ⟨_, _, hchecked, _, rfl, _⟩ := buildAt_eq_ok_iff.mp hbuilt
    obtain rfl := Except.ok.inj (h.symm.trans hchecked)
    have hstatement := @statement_of_table _ table quals vt htable
    rw [hkind] at hstatement
    exact ⟨_, hstatement⟩
  · intro table condition
    have hread := schema?_of_bare (Settings.bare_of_checkedSchema h) table condition
    refine ⟨hread, ?_⟩
    rw [hread, ← Sql.lower_eq_self_iff]
    split
    · rename_i hdollar
      simp [hdollar]
    · rename_i hdollar
      rw [Option.some.injEq, ← String.toList_inj, String.toList_ofList]
      exact (and_iff_right hdollar).symm

/-- A name with digits and an underscore is read as it is. -/
theorem schema_reads_sales :
    Settings.checkedSchema { schema := some "sales_2024" } = .ok "sales_2024" ∧
      ∃ c sql, buildAt { schema := some "sales_2024" } "postgres://db" failing =
          (.ok c, [.introspect "postgres://db" "sales_2024"]) ∧
        c.statement "users" [] = .ok sql ∧ Sql.schema? sql = some "sales_2024" := by
  have hchecked : Settings.checkedSchema { schema := some "sales_2024" } = .ok "sales_2024" := by
    decide +kernel
  obtain ⟨_, hstatement, hread⟩ := schema_reads hchecked "postgres://db" failing
  obtain ⟨condition, hsql⟩ := hstatement _ _ rfl "users" _ rfl rfl []
  have hfolded := (hread "users" condition).2.mpr ⟨by decide, Sql.lower_eq_self_iff.mp rfl⟩
  exact ⟨hchecked, _, _, rfl, hsql, hfolded⟩

/-- Two names that pass the check: the first is read as that of another schema than the one that was
introspected, the second as no name. -/
theorem schema_misread :
    (Settings.checkedSchema { schema := some "Sales" } = .ok "Sales" ∧
      ∃ c sql, buildAt { schema := some "Sales" } "postgres://db" failing =
          (.ok c, [.introspect "postgres://db" "Sales"]) ∧
        c.statement "users" [] = .ok sql ∧ Sql.schema? sql = some "sales") ∧
      Settings.checkedSchema { schema := some "$staff" } = .ok "$staff" ∧
      ∃ c sql, buildAt { schema := some "$staff" } "postgres://db" failing =
          (.ok c, [.introspect "postgres://db" "$staff"]) ∧
        c.statement "users" [] = .ok sql ∧ Sql.schema? sql = none := by
  refine ⟨⟨by decide +kernel, _, _, rfl, rfl, ?_⟩, by decide +kernel, _, _, rfl, rfl, ?_⟩
  · decide +kernel
  · decide +kernel

end Catalog

end Pushdown
