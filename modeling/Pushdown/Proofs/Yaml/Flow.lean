import Mathlib
import Pushdown.Proofs.Json.Compact
import Pushdown.Proofs.Yaml.Scalar

/-!
# Compact documents as YAML

A compact JSON document is a YAML document: its arrays are lists between brackets, its objects are
maps between braces and its strings are scalars between double quotes, whatever they would mean
without them. What is shown of a document (`ReadsInside`) is that it is read from the front of a
longer text, with any fuel from three times its length on; it holds of the documents without parts,
and of an array or an object if it holds of the parts. Main statement: `read_write`.
-/

namespace Pushdown.Yaml

open Json

mutual

/-- The YAML document that a compact document spells. -/
def ofJson : Json → Yaml
  | .array items => .list (ofItems items)
  | .object fields => .map (ofFields fields)
  | .string text => .quoted text
  | leaf => .plain (String.ofList (writeLeaf leaf))

/-- The items that written items spell. -/
def ofItems : List Json → List Yaml
  | [] => []
  | item :: rest => ofJson item :: ofItems rest

/-- The entries that written fields spell. -/
def ofFields : List (String × Json) → List (Yaml × Yaml)
  | [] => []
  | (key, value) :: rest => (.quoted key, ofJson value) :: ofFields rest

end

/-- Texts whose characters all stand on a line as they are. -/
def InlineText (text : String) : Prop :=
  ∀ c ∈ text.toList, isInline c = true

/-- Keys that fit in front of a colon. -/
def ShortKey (key : String) : Prop :=
  (String.ofList (writeString key)).utf8ByteSize ≤ keyLimit

instance (key : String) : Decidable (ShortKey key) :=
  inferInstanceAs (Decidable (_ ≤ _))

/-- Documents without numbers whose texts stand on a line and whose keys are short. -/
inductive Inline : Json → Prop
  | null : Inline .null
  | bool (b : Bool) : Inline (.bool b)
  | string {text : String} : InlineText text → Inline (.string text)
  | array {items : List Json} : (∀ item ∈ items, Inline item) → Inline (.array items)
  | object {fields : List (String × Json)} :
      (∀ field ∈ fields, InlineText field.1 ∧ ShortKey field.1) →
        (∀ field ∈ fields, Inline field.2) → Inline (.object fields)

/-- A document is read back from the front of a text that goes on with a bracket, a brace or a
comma, if it goes on. -/
def ReadsInside (indent : Nat) (document : Json) : Prop :=
  ∀ fuel rest, 3 * (write document).length ≤ fuel → Divided rest →
    readInside indent fuel (write document ++ rest) = some (ofJson document, rest)

/-! ## Documents without parts -/

/-- The first characters of written documents. -/
theorem write_eq_cons {document : Json} (h : Inline document) :
    ∃ c s, write document = c :: s ∧ c ∈ ['"', '[', '\x7b', 'n', 't', 'f'] := by
  cases h with
  | null => exact ⟨'n', _, rfl, by decide⟩
  | bool b =>
    cases b with
    | true => exact ⟨'t', _, rfl, by decide⟩
    | false => exact ⟨'f', _, rfl, by decide⟩
  | string _ => exact ⟨'"', _, rfl, by decide⟩
  | array _ => exact ⟨'[', _, rfl, by decide⟩
  | object _ _ => exact ⟨'\x7b', _, rfl, by decide⟩

theorem fuel_pos {document : Json} (h : Inline document) {fuel : Nat}
    (hfuel : 3 * (write document).length ≤ fuel) : ∃ k, fuel = k + 1 := by
  obtain ⟨c, s, hwrite, -⟩ := write_eq_cons h
  rw [hwrite, List.length_cons] at hfuel
  exact Nat.exists_eq_add_of_le' (by omega)

theorem readsInside_null (indent : Nat) : ReadsInside indent .null := by
  intro fuel rest hfuel hrest
  obtain ⟨fuel, rfl⟩ := fuel_pos .null hfuel
  have hread : readPlain true indent (['n', 'u', 'l', 'l'] ++ rest) =
      some (.plain "null", ⟨none, rest⟩) :=
    readPlain_word rfl (List.all_eq_true.mp rfl) hrest indent
  show (readPlain true indent (['n', 'u', 'l', 'l'] ++ rest)).map _ = _
  rw [hread]
  rfl

theorem readsInside_bool (indent : Nat) (b : Bool) : ReadsInside indent (.bool b) := by
  intro fuel rest hfuel hrest
  obtain ⟨fuel, rfl⟩ := fuel_pos (.bool b) hfuel
  cases b with
  | true =>
    have hread : readPlain true indent (['t', 'r', 'u', 'e'] ++ rest) =
        some (.plain "true", ⟨none, rest⟩) :=
      readPlain_word rfl (List.all_eq_true.mp rfl) hrest indent
    show (readPlain true indent (['t', 'r', 'u', 'e'] ++ rest)).map _ = _
    rw [hread]
    rfl
  | false =>
    have hread : readPlain true indent (['f', 'a', 'l', 's', 'e'] ++ rest) =
        some (.plain "false", ⟨none, rest⟩) :=
      readPlain_word rfl (List.all_eq_true.mp rfl) hrest indent
    show (readPlain true indent (['f', 'a', 'l', 's', 'e'] ++ rest)).map _ = _
    rw [hread]
    rfl

theorem readsInside_string (indent : Nat) {text : String} (h : InlineText text) :
    ReadsInside indent (.string text) := by
  intro fuel rest hfuel _
  obtain ⟨fuel, rfl⟩ := fuel_pos (.string h) hfuel
  exact readInside_writeString h indent fuel rest

/-! ## Arrays -/

/-- A written document starts with something else than white space, a comment, a closing bracket or
brace, a comma or a question mark. -/
theorem write_start {document : Json} (h : Inline document) (rest : List Char) :
    ∃ c s, write document ++ rest = c :: s ∧ skipSpace (c :: s) = c :: s ∧
      c ∉ [',', ']', '\x7d', '?'] := by
  obtain ⟨c, s, hwrite, hc⟩ := write_eq_cons h
  refine ⟨c, s ++ rest, by rw [hwrite, List.cons_append], ?_⟩
  simp only [List.mem_cons, List.not_mem_nil, or_false] at hc
  rcases hc with rfl | rfl | rfl | rfl | rfl | rfl <;> exact ⟨rfl, by decide⟩

/-- An item is read up to the comma or the bracket behind it. -/
theorem readListed_item {indent fuel : Nat} {c d : Char} {s rest : List Char} {item : Yaml}
    (hc : c ∉ [',', ']', '\x7d', '?']) (hd : d ∈ [',', ']'])
    (hread : readInside indent fuel (c :: s) = some (item, d :: rest)) :
    readListed indent (fuel + 1) (c :: s) =
      if d = ']' then some ([item], rest)
      else (readListed indent fuel (skipSpace rest)).map fun read => (item :: read.1, read.2) := by
  simp only [List.mem_cons, List.not_mem_nil, or_false, not_or] at hc hd
  rw [readListed]
  · rcases hd with rfl | rfl
    · have hcolon : behindColon? true (c :: s) (',' :: rest) = none := rfl
      have hskip : skipSpace (',' :: rest) = ',' :: rest := rfl
      simp [hread, hcolon, hskip, Option.map_eq_bind]
    · have hcolon : behindColon? true (c :: s) (']' :: rest) = none := rfl
      have hskip : skipSpace (']' :: rest) = ']' :: rest := rfl
      simp [hread, hcolon, hskip]
  · simp_all
  · simp_all

theorem writeItems_start {items : List Json} (h : ∀ item ∈ items, Inline item) (rest : List Char) :
    skipSpace (writeItems items ++ ']' :: rest) = writeItems items ++ ']' :: rest := by
  cases items with
  | nil => rfl
  | cons item items =>
    obtain ⟨more, hmore⟩ : ∃ more, writeItems (item :: items) ++ ']' :: rest = write item ++ more := by
      cases items with
      | nil => exact ⟨_, rfl⟩
      | cons next items => exact ⟨_, List.append_assoc _ _ _⟩
    obtain ⟨c, s, hstart, hskip, -⟩ := write_start (h item List.mem_cons_self) more
    rw [hmore, hstart, hskip]

/-- Items are read up to their closing bracket. -/
theorem readListed_writeItems {indent : Nat} {items : List Json}
    (hinline : ∀ item ∈ items, Inline item) (hitems : ∀ item ∈ items, ReadsInside indent item)
    {fuel : Nat} (hfuel : 3 * (writeItems items).length + 1 ≤ fuel) (rest : List Char) :
    readListed indent fuel (writeItems items ++ ']' :: rest) = some (ofItems items, rest) := by
  induction items generalizing fuel with
  | nil =>
    obtain ⟨fuel, rfl⟩ : ∃ k, fuel = k + 1 := Nat.exists_eq_add_of_le' (by omega)
    rfl
  | cons item items ih =>
    obtain ⟨fuel, rfl⟩ : ∃ k, fuel = k + 1 := Nat.exists_eq_add_of_le' (by omega)
    have hitem : ReadsInside indent item := hitems item List.mem_cons_self
    cases items with
    | nil =>
      rw [writeItems] at hfuel ⊢
      have hread := hitem fuel (']' :: rest) (by omega) (divided_cons rest rfl)
      obtain ⟨c, s, hstart, -, hc⟩ := write_start (hinline item List.mem_cons_self) (']' :: rest)
      rw [hstart] at hread ⊢
      rw [readListed_item hc (by decide) hread]
      rfl
    | cons next items =>
      rw [writeItems_cons_cons, List.length_append, List.length_cons] at hfuel
      have hothers : ∀ other ∈ next :: items, Inline other :=
        fun other hother => hinline other (List.mem_cons_of_mem item hother)
      have hmore : readListed indent fuel (writeItems (next :: items) ++ ']' :: rest) =
          some (ofItems (next :: items), rest) := by
        apply ih hothers
        · intro other hother
          exact hitems other (List.mem_cons_of_mem item hother)
        · omega
      rw [writeItems_cons_cons, List.append_assoc, List.cons_append]
      have hread := hitem fuel (',' :: (writeItems (next :: items) ++ ']' :: rest)) (by omega)
        (divided_cons _ rfl)
      obtain ⟨c, s, hstart, -, hc⟩ := write_start (hinline item List.mem_cons_self)
        (',' :: (writeItems (next :: items) ++ ']' :: rest))
      rw [hstart] at hread ⊢
      rw [readListed_item hc (by decide) hread, writeItems_start hothers, hmore]
      rfl

theorem readsInside_array {indent : Nat} {items : List Json}
    (hinline : ∀ item ∈ items, Inline item) (hitems : ∀ item ∈ items, ReadsInside indent item) :
    ReadsInside indent (.array items) := by
  intro fuel rest hfuel _
  obtain ⟨fuel, rfl⟩ := fuel_pos (.array hinline) hfuel
  rw [write_array, List.length_cons, List.length_append, List.length_singleton] at hfuel
  rw [write_array, List.cons_append, List.append_assoc, List.singleton_append]
  have hread : readListed indent fuel (writeItems items ++ ']' :: rest) =
      some (ofItems items, rest) := readListed_writeItems hinline hitems (by omega) rest
  show (readListed indent fuel (skipSpace (writeItems items ++ ']' :: rest))).map _ = _
  rw [writeItems_start hinline, hread]
  rfl

/-! ## Objects -/

/-- The colon behind a short key is found. -/
theorem behindColon?_key {key : String} (htext : InlineText key) (hkey : ShortKey key)
    (value : List Char) :
    behindColon? true (writeString key ++ ':' :: value) (':' :: value) = some value := by
  have htaken : (writeString key ++ ':' :: value).take
      ((writeString key ++ ':' :: value).length - (value.length + 1)) = writeString key := by
    rw [List.length_append, List.length_cons, Nat.add_sub_cancel, List.take_left]
  have hbreaks : (writeString key).any isBreak = false := by
    rw [List.any_eq_false]
    intro c hc
    simp [isBreak_of_isInline (isInline_writeString htext c hc)]
  have hfits : fitsKey (writeString key) = true := by
    rw [fitsKey, hbreaks]
    simpa [ShortKey] using hkey
  show (if fitsKey (List.take _ _) && (true || atGap value) then some value else none) = _
  rw [htaken, hfits]
  rfl

theorem readMeant_write {document : Json} (h : Inline document) (indent fuel : Nat)
    (rest : List Char) :
    readMeant indent (fuel + 1) (write document ++ rest) =
      readInside indent fuel (write document ++ rest) := by
  obtain ⟨c, s, hstart, hskip, hc⟩ := write_start h rest
  simp only [List.mem_cons, List.not_mem_nil, or_false, not_or] at hc
  rw [hstart, readMeant, hskip]
  split
  · rename_i hcomma
    exact absurd (List.cons.inj hcomma).1 hc.1
  · rename_i hbracket
    exact absurd (List.cons.inj hbracket).1 hc.2.1
  · rename_i hbrace
    exact absurd (List.cons.inj hbrace).1 hc.2.2.1
  · rfl

/-- A field is read up to the comma or the brace behind it. -/
theorem readMapped_field {indent fuel : Nat} {key : String} {document : Json} {d : Char}
    {rest : List Char} (htext : InlineText key) (hkey : ShortKey key) (h : Inline document)
    (hd : d ∈ [',', '\x7d'])
    (hread : readInside indent fuel (write document ++ d :: rest) =
      some (ofJson document, d :: rest)) :
    readMapped indent (fuel + 2) (writeString key ++ ':' :: (write document ++ d :: rest)) =
      if d = '\x7d' then some ([(.quoted key, ofJson document)], rest)
      else (readMapped indent (fuel + 1) (skipSpace rest)).map fun read =>
        ((.quoted key, ofJson document) :: read.1, read.2) := by
  have hname := readInside_writeString htext indent fuel (':' :: (write document ++ d :: rest))
  have hcolon := behindColon?_key htext hkey (write document ++ d :: rest)
  have hmeant := readMeant_write h indent fuel (d :: rest)
  rw [hread] at hmeant
  obtain ⟨s, hquote⟩ : ∃ s, writeString key ++ ':' :: (write document ++ d :: rest) = '"' :: s :=
    ⟨_, rfl⟩
  rw [hquote] at hname hcolon ⊢
  simp only [List.mem_cons, List.not_mem_nil, or_false] at hd
  rw [readMapped]
  · rcases hd with rfl | rfl
    · have hskip : skipSpace (',' :: rest) = ',' :: rest := rfl
      simp [hname, hcolon, hmeant, hskip, Option.map_eq_bind]
    · have hskip : skipSpace ('\x7d' :: rest) = '\x7d' :: rest := rfl
      simp [hname, hcolon, hmeant, hskip]
  · simp
  · simp

theorem writeFields_start (fields : List (String × Json)) (rest : List Char) :
    skipSpace (writeFields fields ++ '\x7d' :: rest) = writeFields fields ++ '\x7d' :: rest := by
  cases fields with
  | nil => rfl
  | cons field fields =>
    cases fields with
    | nil => rfl
    | cons next fields => rfl

/-- Fields are read up to their closing brace. -/
theorem readMapped_writeFields {indent : Nat} {fields : List (String × Json)}
    (hkeys : ∀ field ∈ fields, InlineText field.1 ∧ ShortKey field.1)
    (hinline : ∀ field ∈ fields, Inline field.2)
    (hfields : ∀ field ∈ fields, ReadsInside indent field.2) {fuel : Nat}
    (hfuel : 3 * (writeFields fields).length + 1 ≤ fuel) (rest : List Char) :
    readMapped indent fuel (writeFields fields ++ '\x7d' :: rest) =
      some (ofFields fields, rest) := by
  induction fields generalizing fuel with
  | nil =>
    obtain ⟨fuel, rfl⟩ : ∃ k, fuel = k + 1 := Nat.exists_eq_add_of_le' (by omega)
    rfl
  | cons field fields ih =>
    obtain ⟨key, value⟩ := field
    obtain ⟨htext, hkey⟩ := hkeys (key, value) List.mem_cons_self
    have hvalue : ReadsInside indent value := hfields (key, value) List.mem_cons_self
    have hvalueInline : Inline value := hinline (key, value) List.mem_cons_self
    cases fields with
    | nil =>
      rw [writeFields, List.length_append, List.length_cons] at hfuel
      rw [writeFields, List.append_assoc, List.cons_append]
      obtain ⟨fuel, rfl⟩ : ∃ k, fuel = k + 2 := Nat.exists_eq_add_of_le' (by omega)
      have hread := hvalue fuel ('\x7d' :: rest) (by omega) (divided_cons rest rfl)
      rw [readMapped_field htext hkey hvalueInline (by decide) hread]
      rfl
    | cons next fields =>
      rw [writeFields_cons_cons, List.length_append, List.length_append, List.length_cons,
        List.length_cons] at hfuel
      rw [writeFields_cons_cons, List.append_assoc, List.append_assoc, List.cons_append,
        List.cons_append]
      obtain ⟨fuel, rfl⟩ : ∃ k, fuel = k + 2 := Nat.exists_eq_add_of_le' (by omega)
      have hread := hvalue fuel (',' :: (writeFields (next :: fields) ++ '\x7d' :: rest)) (by omega)
        (divided_cons _ rfl)
      have hmore : readMapped indent (fuel + 1) (writeFields (next :: fields) ++ '\x7d' :: rest) =
          some (ofFields (next :: fields), rest) := by
        apply ih
        · intro other hother
          exact hkeys other (List.mem_cons_of_mem _ hother)
        · intro other hother
          exact hinline other (List.mem_cons_of_mem _ hother)
        · intro other hother
          exact hfields other (List.mem_cons_of_mem _ hother)
        · omega
      rw [readMapped_field htext hkey hvalueInline (by decide) hread, writeFields_start, hmore]
      rfl

theorem readsInside_object {indent : Nat} {fields : List (String × Json)}
    (hkeys : ∀ field ∈ fields, InlineText field.1 ∧ ShortKey field.1)
    (hinline : ∀ field ∈ fields, Inline field.2)
    (hfields : ∀ field ∈ fields, ReadsInside indent field.2) :
    ReadsInside indent (.object fields) := by
  intro fuel rest hfuel _
  obtain ⟨fuel, rfl⟩ := fuel_pos (.object hkeys hinline) hfuel
  rw [write_object, List.length_cons, List.length_append, List.length_singleton] at hfuel
  rw [write_object, List.cons_append, List.append_assoc, List.singleton_append]
  have hread : readMapped indent fuel (writeFields fields ++ '\x7d' :: rest) =
      some (ofFields fields, rest) := readMapped_writeFields hkeys hinline hfields (by omega) rest
  show (readMapped indent fuel (skipSpace (writeFields fields ++ '\x7d' :: rest))).map _ = _
  rw [writeFields_start, hread]
  rfl

/-! ## All documents -/

theorem Inline.readsInside {document : Json} (h : Inline document) (indent : Nat) :
    ReadsInside indent document := by
  induction h with
  | null => exact readsInside_null indent
  | bool b => exact readsInside_bool indent b
  | string htext => exact readsInside_string indent htext
  | array hinline hitems => exact readsInside_array hinline hitems
  | object hkeys hinline hfields => exact readsInside_object hkeys hinline hfields

/-- A document of texts that stand on a line is written on one line. -/
theorem Inline.isInline_write {document : Json} (h : Inline document) :
    ∀ c ∈ write document, isInline c = true := by
  have hmarks : OfMarks fun c => isInline c = true := List.all_eq_true.mp rfl
  induction h with
  | null => exact List.all_eq_true.mp rfl
  | bool b =>
    cases b with
    | true => exact List.all_eq_true.mp rfl
    | false => exact List.all_eq_true.mp rfl
  | string htext => exact isInline_writeString htext
  | array _ hitems => exact forall_write_array hmarks hitems
  | object hkeys _ hfields =>
    refine forall_write_object hmarks ?_ hfields
    exact fun field hfield => isInline_writeString (hkeys field hfield).1

/-! ## Texts -/

theorem unifyBreaks_inline {s : List Char} (h : ∀ c ∈ s, isInline c = true) :
    unifyBreaks s = s := by
  induction s with
  | nil => rfl
  | cons c s ih =>
    have hc : isInline c = true := h c List.mem_cons_self
    have hreturn : c ≠ '\r' := by
      rintro rfl
      cases hc
    have hnext : c ≠ '\u0085' := by
      rintro rfl
      cases hc
    have hs : unifyBreaks s = s := ih fun other hother => h other (List.mem_cons_of_mem c hother)
    rw [unifyBreaks, hs]
    · simp [hreturn, hnext]
    · rintro rest rfl
      exact absurd rfl hreturn

theorem isAllowed_of_isInline {c : Char} (h : isInline c = true) : isAllowed c = true := by
  simp only [isInline, Bool.and_eq_true] at h
  exact h.1.1.1

/-- What is between braces to the end of a text is the document of the text, and no key. -/
theorem readNode_braces {s : List Char} {document : Yaml}
    (hread : readInside 0 (3 * ('\x7b' :: s).length + 3) ('\x7b' :: s) = some (document, []))
    (fuel : Nat) :
    readNode (fuel + 1) 0 ⟨some 0, '\x7b' :: s⟩ = some (document, ⟨none, []⟩) := by
  have hinline : readInline 0 ('\x7b' :: s) = some (document, ⟨none, []⟩) := by
    show (readInside 0 (3 * ('\x7b' :: s).length + 3) ('\x7b' :: s)).map _ = _
    rw [hread]
    rfl
  have hdash : Place.atMark ⟨some 0, '\x7b' :: s⟩ '-' = false := rfl
  have hquestion : Place.atMark ⟨some 0, '\x7b' :: s⟩ '?' = false := rfl
  have hcolon : behindColon? false ('\x7b' :: s) [] = none := rfl
  rw [readNode]
  simp [hdash, hquestion, hinline, hcolon]

/-- A written object is read as the map it spells. -/
theorem read_write {fields : List (String × Json)} (h : Inline (.object fields)) :
    read (write (.object fields)) = some (.map (ofFields fields)) := by
  have hinline := h.isInline_write
  have hallowed : (write (.object fields)).all isAllowed = true := by
    rw [List.all_eq_true]
    exact fun c hc => isAllowed_of_isInline (hinline c hc)
  have hread := h.readsInside 0 (3 * (write (.object fields)).length + 3) [] (by omega) divided_nil
  rw [List.append_nil] at hread
  have hbreaks := unifyBreaks_inline hinline
  obtain ⟨s, hs⟩ : ∃ s, write (.object fields) = '\x7b' :: s := ⟨_, rfl⟩
  rw [hs] at hallowed hread hbreaks ⊢
  have hnode := readNode_braces hread
  have hnext : Place.next ⟨some 0, '\x7b' :: s⟩ = ⟨some 0, '\x7b' :: s⟩ := rfl
  have hend : Place.isEnd ⟨some 0, '\x7b' :: s⟩ = false := rfl
  have hlast : isLast ('\x7b' :: s).length (Place.next ⟨none, []⟩) = true := rfl
  rw [Yaml.read]
  simp only [hbreaks, hallowed, hnext, hend, hnode, Bool.not_true, Bool.not_false, Bool.false_and,
    Bool.false_eq_true, if_false, if_true, Option.bind_eq_bind, Option.bind_some, hlast]
  rfl

end Pushdown.Yaml
