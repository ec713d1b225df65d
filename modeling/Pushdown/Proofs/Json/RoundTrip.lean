import Mathlib
import Pushdown.Proofs.Json.Lexeme
import Pushdown.Proofs.Ordered

/-!
# Documents in compact form

Reading undoes the compact form of every document without doubles. What is shown of a document
(`ReadsBack`) is that it is read from the front of a longer text, with any fuel from twice its
length on; it holds of the documents without parts, and of an array or an object if it holds of the
parts. Main statement: `read_write`.
-/

namespace Pushdown.Json

open Text (Stops stops_nil stops_cons)

/-- Documents whose numbers are whole numbers of a word and that nest at most so many levels deep.
The keys of an object rise, as they do in every object that was read. -/
inductive Exact : Nat → Json → Prop
  | null {depth : Nat} : Exact depth .null
  | bool {depth : Nat} (b : Bool) : Exact depth (.bool b)
  | int {depth : Nat} {n : Int} : IsWord n → Exact depth (.int n)
  | string {depth : Nat} (s : String) : Exact depth (.string s)
  | array {depth : Nat} {items : List Json} :
      (∀ item ∈ items, Exact depth item) → Exact (depth + 1) (.array items)
  | object {depth : Nat} {fields : List (String × Json)} :
      Ordered.Rising fields → (∀ field ∈ fields, Exact depth field.2) →
        Exact (depth + 1) (.object fields)

/-- A document is read back from the front of a text that does not go on with a number. -/
def ReadsBack (depth : Nat) (document : Json) : Prop :=
  ∀ fuel rest, 2 * (write document).length ≤ fuel + 1 → Stops isNumberChar rest →
    readValue (fuel + 1) depth (write document ++ rest) = .ok (document, rest)

/-! ## Documents without parts -/

theorem readsBack_null (depth : Nat) : ReadsBack depth .null := by
  intro fuel rest _ _
  rfl

theorem readsBack_bool (depth : Nat) (b : Bool) : ReadsBack depth (.bool b) := by
  intro fuel rest _ _
  cases b <;> rfl

theorem readsBack_string (depth : Nat) (text : String) : ReadsBack depth (.string text) := by
  intro fuel rest _ _
  obtain ⟨s, htext, hread⟩ := readString_writeString text rest
  rw [show write (.string text) = writeString text from rfl, htext]
  show (readString s).map _ = _
  rw [hread]
  rfl

theorem readValue_digit {c : Char} (h : c.isDigit = true) (fuel depth : Nat) (s : List Char) :
    readValue (fuel + 1) depth (c :: s) = readNumber false (c :: s) := by
  have hmem : c ∈ ['0', '1', '2', '3', '4', '5', '6', '7', '8', '9'] := by
    simpa using Number.forall_isDigit (p := fun c =>
      ['0', '1', '2', '3', '4', '5', '6', '7', '8', '9'].contains c) (by decide) c h
  simp only [List.mem_cons, List.not_mem_nil, or_false] at hmem
  -- The reader tells the first characters apart, so each digit takes its own way past the words.
  rcases hmem with rfl | rfl | rfl | rfl | rfl | rfl | rfl | rfl | rfl | rfl <;> rfl

theorem readsBack_int (depth : Nat) {n : Int} (hn : IsWord n) : ReadsBack depth (.int n) := by
  intro fuel rest _ hrest
  have hread := readNumber_digits hn hrest
  rw [show write (.int n) = Number.ofInt n from rfl, Number.ofInt]
  split
  · rename_i hneg
    rw [decide_eq_true hneg] at hread
    exact hread
  · rename_i hpos
    obtain ⟨c, ds, hds, hc⟩ := Number.digits_eq_cons n.natAbs
    rw [decide_eq_false hpos, hds] at hread
    rw [hds, List.cons_append, readValue_digit hc]
    exact hread

/-! ## Arrays and objects -/

/-- A written document starts with a character that is neither a space nor a closing bracket. -/
theorem write_eq_cons {depth : Nat} {document : Json} (h : Exact depth document) :
    ∃ c s, write document = c :: s ∧ isSpace c = false ∧ c ≠ ']' := by
  cases h with
  | null => exact ⟨'n', _, rfl, rfl, by decide⟩
  | bool b =>
    cases b with
    | true => exact ⟨'t', _, rfl, rfl, by decide⟩
    | false => exact ⟨'f', _, rfl, rfl, by decide⟩
  | string s => exact ⟨'"', _, rfl, rfl, by decide⟩
  | array _ => exact ⟨'[', _, rfl, rfl, by decide⟩
  | object _ _ => exact ⟨'\x7b', _, rfl, rfl, by decide⟩
  | @int _ n _ =>
    show ∃ c s, Number.ofInt n = c :: s ∧ _
    rw [Number.ofInt]
    split
    · exact ⟨'-', _, rfl, rfl, by decide⟩
    · obtain ⟨c, ds, hds, hc⟩ := Number.digits_eq_cons n.natAbs
      have hstart : (!isSpace c && c != ']') = true :=
        Number.forall_isDigit (p := fun c => !isSpace c && c != ']') (by decide) c hc
      rw [Bool.and_eq_true, Bool.not_eq_true', bne_iff_ne] at hstart
      exact ⟨c, ds, hds, hstart⟩

/-- Items are read up to their closing bracket. -/
theorem readItems_writeItems {depth : Nat} {items : List Json} (hne : items ≠ [])
    (hitems : ∀ item ∈ items, ReadsBack depth item) {fuel : Nat}
    (hfuel : 2 * (writeItems items).length + 2 ≤ fuel) (rest : List Char) :
    readItems fuel depth (writeItems items ++ ']' :: rest) = .ok (items, rest) := by
  induction items generalizing fuel with
  | nil => exact absurd rfl hne
  | cons item items ih =>
    obtain ⟨fuel, rfl⟩ : ∃ k, fuel = k + 2 := Nat.exists_eq_add_of_le' (by omega)
    have hitem := hitems item List.mem_cons_self
    cases items with
    | nil =>
      rw [writeItems] at hfuel ⊢
      have hread := hitem fuel (']' :: rest) (by omega) (stops_cons rest rfl)
      have hskip : skipSpace (']' :: rest) = ']' :: rest := rfl
      rw [readItems]
      simp only [hread, hskip, bind, Except.bind, pure, Except.pure]
    | cons next items =>
      rw [writeItems_cons_cons, List.length_append, List.length_cons] at hfuel
      have hread := hitem fuel (',' :: (writeItems (next :: items) ++ ']' :: rest)) (by omega)
        (stops_cons _ rfl)
      have hskip : skipSpace (',' :: (writeItems (next :: items) ++ ']' :: rest)) =
        ',' :: (writeItems (next :: items) ++ ']' :: rest) := rfl
      have hothers : readItems (fuel + 1) depth (writeItems (next :: items) ++ ']' :: rest) =
          .ok (next :: items, rest) := by
        apply ih (List.cons_ne_nil next items)
        · intro other hother
          exact hitems other (List.mem_cons_of_mem item hother)
        · omega
      rw [writeItems_cons_cons, List.append_assoc, List.cons_append, readItems]
      simp only [hread, hskip, hothers, bind, Except.bind, pure, Except.pure]

/-- Fields are read up to their closing brace. -/
theorem readFields_writeFields {depth : Nat} {fields : List (String × Json)} (hne : fields ≠ [])
    (hfields : ∀ field ∈ fields, ReadsBack depth field.2) {fuel : Nat}
    (hfuel : 2 * (writeFields fields).length + 2 ≤ fuel) (rest : List Char) :
    readFields fuel depth (writeFields fields ++ '\x7d' :: rest) = .ok (fields, rest) := by
  induction fields generalizing fuel with
  | nil => exact absurd rfl hne
  | cons field fields ih =>
    obtain ⟨key, value⟩ := field
    obtain ⟨fuel, rfl⟩ : ∃ k, fuel = k + 2 := Nat.exists_eq_add_of_le' (by omega)
    have hvalue : ReadsBack depth value := hfields (key, value) List.mem_cons_self
    have hcolon (s : List Char) : skipSpace (':' :: s) = ':' :: s := rfl
    cases fields with
    | nil =>
      rw [writeFields] at hfuel ⊢
      rw [List.length_append, List.length_cons] at hfuel
      have hread := hvalue fuel ('\x7d' :: rest) (by omega) (stops_cons rest rfl)
      obtain ⟨s, htext, hkey⟩ := readString_writeString key
        (':' :: (write value ++ '\x7d' :: rest))
      have hquote : skipSpace ('"' :: s) = '"' :: s := rfl
      have hskip : skipSpace ('\x7d' :: rest) = '\x7d' :: rest := rfl
      rw [List.append_assoc, List.cons_append, htext, readFields]
      simp only [hquote, hkey, hcolon, hread, hskip, bind, Except.bind, pure, Except.pure]
    | cons next fields =>
      rw [writeFields_cons_cons, List.length_append, List.length_append, List.length_cons,
        List.length_cons] at hfuel
      have hread := hvalue fuel (',' :: (writeFields (next :: fields) ++ '\x7d' :: rest)) (by omega)
        (stops_cons _ rfl)
      obtain ⟨s, htext, hkey⟩ := readString_writeString key
        (':' :: (write value ++ ',' :: (writeFields (next :: fields) ++ '\x7d' :: rest)))
      have hquote : skipSpace ('"' :: s) = '"' :: s := rfl
      have hskip : skipSpace (',' :: (writeFields (next :: fields) ++ '\x7d' :: rest)) =
        ',' :: (writeFields (next :: fields) ++ '\x7d' :: rest) := rfl
      have hothers : readFields (fuel + 1) depth (writeFields (next :: fields) ++ '\x7d' :: rest) =
          .ok (next :: fields, rest) := by
        apply ih (List.cons_ne_nil next fields)
        · intro other hother
          exact hfields other (List.mem_cons_of_mem _ hother)
        · omega
      rw [writeFields_cons_cons, List.append_assoc, List.append_assoc, List.cons_append,
        List.cons_append, htext, readFields]
      simp only [hquote, hkey, hcolon, hread, hskip, hothers, bind, Except.bind, pure, Except.pure]

/-- Behind an opening bracket stand items, unless the array ends there. -/
theorem readValue_items {c : Char} (hspace : isSpace c = false) (hc : c ≠ ']') (fuel depth : Nat)
    (s : List Char) : readValue (fuel + 1) (depth + 1) ('[' :: c :: s) =
      (readItems fuel depth (c :: s)).map fun read => (.array read.1, read.2) := by
  have hbracket : skipSpace ('[' :: c :: s) = '[' :: c :: s := rfl
  have hskip : skipSpace (c :: s) = c :: s := by
    simp [skipSpace, hspace]
  rw [readValue, hbracket]
  simp only [hskip]
  split
  · rename_i hempty
    cases hempty
  · rename_i hclose
    exact absurd (List.cons.inj hclose).1 hc
  · rfl

theorem readsBack_array {depth : Nat} {items : List Json}
    (hexact : ∀ item ∈ items, Exact depth item) (hitems : ∀ item ∈ items, ReadsBack depth item) :
    ReadsBack (depth + 1) (.array items) := by
  intro fuel rest hfuel _
  rw [write_array, List.length_cons, List.length_append, List.length_singleton] at hfuel
  rw [write_array, List.cons_append, List.append_assoc, List.singleton_append]
  cases items with
  | nil => rfl
  | cons item items =>
    have hread : readItems fuel depth (writeItems (item :: items) ++ ']' :: rest) =
        .ok (item :: items, rest) :=
      readItems_writeItems (List.cons_ne_nil item items) hitems (by omega) rest
    obtain ⟨c, s, hstart, hspace, hc⟩ : ∃ c s, writeItems (item :: items) ++ ']' :: rest = c :: s ∧
        isSpace c = false ∧ c ≠ ']' := by
      obtain ⟨c, s, hitem, hc⟩ := write_eq_cons (hexact item List.mem_cons_self)
      cases items with
      | nil => exact ⟨c, s ++ ']' :: rest, by rw [writeItems, hitem, List.cons_append], hc⟩
      | cons next items =>
        exact ⟨c, _, by rw [writeItems_cons_cons, hitem, List.cons_append, List.cons_append], hc⟩
    rw [hstart] at hread ⊢
    rw [readValue_items hspace hc, hread]
    rfl

/-- An object is read as the object of its fields, in whatever order these are written. -/
theorem readValue_object {depth : Nat} {fields : List (String × Json)}
    (hfields : ∀ field ∈ fields, ReadsBack depth field.2) {fuel : Nat}
    (hfuel : 2 * (write (.object fields)).length ≤ fuel + 1) (rest : List Char) :
    readValue (fuel + 1) (depth + 1) (write (.object fields) ++ rest) =
      .ok (ofFields fields, rest) := by
  rw [write_object, List.length_cons, List.length_append, List.length_singleton] at hfuel
  rw [write_object, List.cons_append, List.append_assoc, List.singleton_append]
  cases fields with
  | nil => rfl
  | cons field fields =>
    have hread : readFields fuel depth (writeFields (field :: fields) ++ '\x7d' :: rest) =
        .ok (field :: fields, rest) :=
      readFields_writeFields (List.cons_ne_nil field fields) hfields (by omega) rest
    obtain ⟨s, hstart⟩ : ∃ s, writeFields (field :: fields) ++ '\x7d' :: rest = '"' :: s := by
      cases fields with
      | nil => exact ⟨_, rfl⟩
      | cons next fields => exact ⟨_, rfl⟩
    rw [hstart] at hread ⊢
    show (readFields fuel depth ('"' :: s)).map (fun read => (ofFields read.1, read.2)) = _
    rw [hread]
    rfl

theorem readsBack_object {depth : Nat} {fields : List (String × Json)}
    (hrising : Ordered.Rising fields) (hfields : ∀ field ∈ fields, ReadsBack depth field.2) :
    ReadsBack (depth + 1) (.object fields) := by
  intro fuel rest hfuel _
  rw [readValue_object hfields hfuel, ofFields, Ordered.ofList_rising hrising]

/-! ## All documents -/

theorem Exact.readsBack {depth : Nat} {document : Json} (h : Exact depth document) :
    ReadsBack depth document := by
  induction h with
  | null => exact readsBack_null _
  | bool b => exact readsBack_bool _ b
  | int hn => exact readsBack_int _ hn
  | string text => exact readsBack_string _ text
  | array hexact hitems => exact readsBack_array hexact hitems
  | object hrising _ hfields => exact readsBack_object hrising hfields

/-- A text that starts with a document, as it is read with enough fuel, and ends there is read as the
document. -/
theorem read_of_readValue {s : List Char} {document : Json}
    (h : readValue (2 * s.length + 2) deepest s = .ok (document, [])) : read s = .ok document := by
  rw [read, h]
  rfl

/-- A document that nests at most as deep as is read reads back from its compact form. -/
theorem read_write {document : Json} (h : Exact deepest document) :
    read (write document) = .ok document := by
  have hread := h.readsBack (2 * (write document).length + 1) [] (by omega) (stops_nil _)
  rw [List.append_nil] at hread
  exact read_of_readValue hread

/-- An object whose fields stand in any order is read from its compact form as the object of these
fields. -/
theorem read_write_object {fields : List (String × Json)}
    (h : ∀ field ∈ fields, Exact (deepest - 1) field.2) :
    read (write (.object fields)) = .ok (ofFields fields) := by
  have hfields : ∀ field ∈ fields, ReadsBack (deepest - 1) field.2 :=
    fun field hfield => (h field hfield).readsBack
  have hread := readValue_object hfields
    (by omega : 2 * (write (.object fields)).length ≤ 2 * (write (.object fields)).length + 1 + 1) []
  rw [List.append_nil] at hread
  exact read_of_readValue hread

end Pushdown.Json
