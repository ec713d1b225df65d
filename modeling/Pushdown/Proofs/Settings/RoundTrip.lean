import Mathlib
import Pushdown.Proofs.Yaml.Flow
import Pushdown.Settings.Document
import Pushdown.Settings.Reader

/-!
# Settings read back

The document of settings is JSON and settings are read as YAML. A text of printable characters
stands between double quotes there, so it is never taken for nothing, for a truth value or for a
list, and what is not set is left out. Main statement: the document of settings with printable texts
is read as these settings (`read_compact`).
-/

namespace Pushdown.Settings

open Yaml (Inline InlineText ShortKey isInline ofJson ofFields)

/-- Texts of the characters from the space to the tilde. -/
def Printable (text : String) : Prop :=
  ∀ c ∈ text.toList, ' ' ≤ c ∧ c ≤ '~'

/-- The texts of settings. -/
def texts (s : Settings) : List String :=
  s.url.toList ++ s.schema.toList ++ s.patterns

/-- The field of patterns, if there are any. -/
def patternsField (patterns : List String) : List (String × Json) :=
  if patterns.isEmpty then [] else [("tables_to_expose", .array (patterns.map .string))]

/-- The fields that are written. -/
def fields (s : Settings) : List (String × Json) :=
  textField "connection_string" s.url ++ textField "schema" s.schema ++
    patternsField s.patterns ++ [("escape_string_literals", .bool s.escapeQuotes)]

/-- Sets what a written field says. -/
def setField? (s : Settings) (field : String × Json) : Option Settings :=
  s.set? field.1 (ofJson field.2)

theorem inlineText_of_printable {text : String} (h : Printable text) : InlineText text := by
  intro c hc
  obtain ⟨hlow, hhigh⟩ := h c hc
  have hlow : 0x20 ≤ c.toNat := hlow
  have hhigh : c.toNat ≤ 0x7e := hhigh
  have hother : ∀ k : Char, 0x7e < k.toNat ∨ k.toNat < 0x20 → c ≠ k := by
    rintro k hk rfl
    omega
  have hfeed : c ≠ '\n' := hother _ (.inr (by decide))
  have hline : c ≠ '\u2028' := hother _ (.inl (by decide))
  have hparagraph : c ≠ '\u2029' := hother _ (.inl (by decide))
  have hnext : c ≠ '\u0085' := hother _ (.inl (by decide))
  simp [isInline, Yaml.isAllowed, Yaml.isBreak, hlow, hhigh, hfeed, hline, hparagraph, hnext]

/-! ## Fields -/

theorem names_textField (name : String) (text : Option String) :
    ((textField name text).map Prod.fst).Sublist [name] := by
  cases text with
  | none => exact List.nil_sublist _
  | some text => exact List.Sublist.refl _

theorem names_patternsField (patterns : List String) :
    ((patternsField patterns).map Prod.fst).Sublist ["tables_to_expose"] := by
  cases patterns with
  | nil => exact List.nil_sublist _
  | cons pattern patterns => exact List.Sublist.refl _

/-- The fields have some of the names that are known, in their order. -/
theorem names_fields (s : Settings) : (s.fields.map Prod.fst).Sublist fieldNames := by
  rw [fields, List.map_append, List.map_append, List.map_append]
  have htexts := (names_textField "connection_string" s.url).append
    (names_textField "schema" s.schema)
  exact (htexts.append (names_patternsField s.patterns)).append (List.Sublist.refl _)

theorem inline_fieldNames {name : String} (h : name ∈ fieldNames) :
    InlineText name ∧ ShortKey name := by
  simp only [fieldNames, List.mem_cons, List.not_mem_nil, or_false] at h
  rcases h with rfl | rfl | rfl | rfl <;> exact ⟨List.all_eq_true.mp rfl, by decide⟩

theorem inline_textField {name : String} {text : Option String}
    (h : ∀ t ∈ text, Printable t) : ∀ field ∈ textField name text, Inline field.2 := by
  intro field hfield
  cases text with
  | none => cases hfield
  | some t =>
    rw [List.mem_singleton.mp hfield]
    exact .string (inlineText_of_printable (h t rfl))

theorem inline_patternsField {patterns : List String} (h : ∀ t ∈ patterns, Printable t) :
    ∀ field ∈ patternsField patterns, Inline field.2 := by
  intro field hfield
  cases patterns with
  | nil => cases hfield
  | cons pattern patterns =>
    rw [List.mem_singleton.mp hfield]
    apply Inline.array
    intro item hitem
    obtain ⟨text, htext, rfl⟩ := List.mem_map.mp hitem
    exact .string (inlineText_of_printable (h text htext))

theorem inline_fields {s : Settings} (h : ∀ text ∈ s.texts, Printable text) :
    Inline (.object s.fields) := by
  simp only [texts, List.mem_append, Option.mem_toList] at h
  apply Inline.object
  · intro field hfield
    exact inline_fieldNames ((names_fields s).subset (List.mem_map_of_mem hfield))
  · intro field hfield
    simp only [fields, List.mem_append, List.mem_singleton] at hfield
    rcases hfield with ((hurl | hschema) | hpatterns) | rfl
    · exact inline_textField (fun text htext => h text (.inl (.inl htext))) field hurl
    · exact inline_textField (fun text htext => h text (.inl (.inr htext))) field hschema
    · exact inline_patternsField (fun text htext => h text (.inr htext)) field hpatterns
    · exact .bool s.escapeQuotes

/-! ## Reading -/

/-- Fields of different names are set one after the other. -/
theorem setAll?_ofFields {s : Settings} {taken : List String} {fields : List (String × Json)}
    (hnames : (fields.map Prod.fst).Nodup) (htaken : ∀ field ∈ fields, field.1 ∉ taken) :
    setAll? s taken (ofFields fields) = fields.foldlM setField? s := by
  induction fields generalizing s taken with
  | nil => rfl
  | cons field fields ih =>
    obtain ⟨name, value⟩ := field
    rw [List.map_cons, List.nodup_cons] at hnames
    have hname : taken.contains name = false := by
      simpa using htaken (name, value) List.mem_cons_self
    have hrest : ∀ other ∈ fields,
        other.1 ∉ (if fieldNames.contains name then name :: taken else taken) := by
      intro other hother
      have hnew : other.1 ∉ taken := htaken other (List.mem_cons_of_mem _ hother)
      have hdistinct : other.1 ≠ name := by
        intro heq
        exact hnames.1 (List.mem_map.mpr ⟨other, hother, heq⟩)
      split
      · simp [hnew, hdistinct]
      · exact hnew
    rw [ofFields, setAll?, List.foldlM_cons, setField?]
    simp only [Yaml.text?, Option.bind_eq_bind, Option.bind_some, hname, Bool.false_eq_true,
      if_false]
    cases s.set? name (ofJson value) with
    | none => rfl
    | some next => exact ih hnames.2 hrest

theorem mapM_text? (texts : List String) :
    (Yaml.ofItems (texts.map .string)).mapM Yaml.text? = some texts := by
  induction texts with
  | nil => rfl
  | cons text texts ih =>
    rw [List.map_cons, Yaml.ofItems, List.mapM_cons, ih]
    rfl

/-- The fields that are written set every setting again. -/
theorem foldlM_fields (s : Settings) : s.fields.foldlM setField? {} = some s := by
  obtain ⟨url, schema, patterns, escapeQuotes⟩ := s
  have hurl : (textField "connection_string" url).foldlM setField? {} = some { url } := by
    cases url with
    | none => rfl
    | some text => rfl
  have hschema : (textField "schema" schema).foldlM setField? { url } =
      some { url, schema } := by
    cases schema with
    | none => rfl
    | some text => rfl
  have hpatterns : (patternsField patterns).foldlM setField? { url, schema } =
      some { url, schema, patterns } := by
    cases patterns with
    | nil => rfl
    | cons pattern patterns =>
      show ((patterns? (.list (Yaml.ofItems ((pattern :: patterns).map .string)))).map _).bind _ = _
      rw [patterns?, mapM_text?]
      rfl
  have hescape : [("escape_string_literals", Json.bool escapeQuotes)].foldlM setField?
      { url, schema, patterns } = some { url, schema, patterns, escapeQuotes } := by
    cases escapeQuotes with
    | true => rfl
    | false => rfl
  simp only [fields, List.foldlM_append, hurl, hschema, hpatterns, hescape, Option.bind_eq_bind,
    Option.bind_some]

/-- Settings with printable texts are read from their document as they are: what is not set stays
not set, and the patterns keep their order. -/
theorem read_compact {s : Settings} (h : ∀ text ∈ s.texts, Printable text) :
    Settings.read s.toJson.compact = .ok s := by
  have hread : Yaml.read s.toJson.compact.toList = some (.map (ofFields s.fields)) := by
    rw [Json.compact, String.toList_ofList]
    exact Yaml.read_write (inline_fields h)
  have hnames : (s.fields.map Prod.fst).Nodup := (names_fields s).nodup (by decide)
  have hset : ofYaml? (.map (ofFields s.fields)) = some s := by
    show setAll? {} [] (ofFields s.fields) = some s
    rw [setAll?_ofFields hnames (by simp), foldlM_fields]
  rw [Settings.read, hread, Option.bind_some, hset]

/-- Texts that would be nothing, a truth value, a number, a list or a comment without quotes. -/
theorem read_compact_lookalikes :
    let s : Settings :=
      { url := some "null", patterns := ["true", "12", " [a, 'b']: \\ \"c\" #\x7b\x7d ", ""] }
    (∀ text ∈ s.texts, Printable text) ∧ Settings.read s.toJson.compact = .ok s := by
  intro s
  have hprintable : ∀ text ∈ s.texts, Printable text := by simp [s, texts, Printable]
  exact ⟨hprintable, read_compact hprintable⟩

end Pushdown.Settings
