import Mathlib
import Pushdown.Proofs.Json.Lexeme
import Pushdown.Proofs.Json.Null
import Pushdown.Proofs.Record.Line

/-!
# Lines show their entries alone

The text of a document says where it ends: a string at its closing quote, an array or an object at
its closing mark, and anything else in front of the next mark. So two texts of documents that start
at one place of a line are the same (`Spelt.append_inj`), and a line does not show other entries
beside its own (`shows_unique`).
-/

namespace Pushdown

open Json (commas nullText readString_writeString write writeString)
open Number
open Text (Stops stops_cons)

/-- Characters that are no marks of a document. -/
def isBare (c : Char) : Bool :=
  !(['"', '[', ']', '\x7b', '\x7d', ':', ','].contains c)

/-- The shapes that the text of a document has. -/
inductive Spelt : List Char → Prop
  | bare {run : List Char} : run ≠ [] → (∀ c ∈ run, isBare c = true) → Spelt run
  | string (text : String) : Spelt (writeString text)
  | array {items : List (List Char)} :
      (∀ item ∈ items, Spelt item) → Spelt ('[' :: (commas items ++ [']']))
  | object {fields : List (String × List Char)} :
      (∀ field ∈ fields, Spelt field.2) →
        Spelt ('\x7b' :: (commas (fields.map entryText) ++ ['\x7d']))

/-! ## Where a text ends -/

/-- Two texts are told apart by what they are in front of something else. -/
def Apart (s t : List Char) : Prop :=
  ∀ ⦃rest other⦄, Stops isBare rest → Stops isBare other → s ++ rest = t ++ other →
    s = t ∧ rest = other

/-- Runs of bare characters in front of something else are taken up to there. -/
theorem apart_bare {s t : List Char} (hs : ∀ c ∈ s, isBare c = true)
    (ht : ∀ c ∈ t, isBare c = true) : Apart s t := by
  intro rest other hrest hother h
  have hrun : s = t := by
    rw [← Text.takeWhile_append_stops hs hrest, h, Text.takeWhile_append_stops ht hother]
  rw [hrun] at h
  exact ⟨hrun, List.append_cancel_left h⟩

/-- A run of bare characters does not start with a mark. -/
theorem apart_mark {run s : List Char} {mark : Char} (hne : run ≠ [])
    (hrun : ∀ c ∈ run, isBare c = true) (hmark : isBare mark = false) : Apart run (mark :: s) := by
  intro rest other _ _ h
  obtain ⟨c, run, rfl⟩ := List.exists_cons_of_ne_nil hne
  have hc : isBare c = true := hrun c List.mem_cons_self
  rw [(List.cons.inj h).1, hmark] at hc
  cases hc

theorem apart_marks {m n : Char} {s t : List Char} (h : m ≠ n) : Apart (m :: s) (n :: t) := by
  intro rest other _ _ heq
  exact absurd (List.cons.inj heq).1 h

theorem Apart.symm {s t : List Char} (h : Apart s t) : Apart t s := by
  intro rest other hrest hother heq
  exact (h hother hrest heq.symm).imp Eq.symm Eq.symm

/-- A string is read up to its closing quote. -/
theorem writeString_append_inj {a b : String} {rest other : List Char}
    (h : writeString a ++ rest = writeString b ++ other) : a = b ∧ rest = other := by
  obtain ⟨s, hs, hreads⟩ := readString_writeString a rest
  obtain ⟨t, ht, hreadt⟩ := readString_writeString b other
  rw [hs, ht] at h
  rw [(List.cons.inj h).2, hreadt] at hreads
  exact (Prod.mk.inj (Except.ok.inj hreads)).imp Eq.symm Eq.symm

/-- Pieces are a first one and others with a comma in front of each. -/
theorem commas_cons (s : List Char) (ss : List (List Char)) :
    commas (s :: ss) = s ++ ss.flatMap (',' :: ·) := by
  induction ss generalizing s with
  | nil => simp
  | cons next ss ih => rw [Json.commas_cons_cons, ih, List.flatMap_cons, List.cons_append]

section Closing

variable {close : Char} (hclose : isBare close = false) (hcomma : close ≠ ',')
  {ss ts : List (List Char)} {rest other : List Char}

include hclose in
theorem stops_others (ss : List (List Char)) (rest : List Char) :
    Stops isBare (ss.flatMap (',' :: ·) ++ close :: rest) := by
  cases ss with
  | nil => exact stops_cons rest hclose
  | cons s ss => exact stops_cons _ rfl

include hclose hcomma

/-- Pieces with a comma in front of each are told apart one by one up to the closing mark. -/
theorem others_append_inj (hapart : ∀ s ∈ ss, ∀ t ∈ ts, Apart s t)
    (h : ss.flatMap (',' :: ·) ++ close :: rest = ts.flatMap (',' :: ·) ++ close :: other) :
    ss = ts ∧ rest = other := by
  induction ss generalizing ts with
  | nil =>
    cases ts with
    | nil => exact ⟨rfl, (List.cons.inj h).2⟩
    | cons t ts => exact absurd (List.cons.inj h).1 hcomma
  | cons s ss ih =>
    cases ts with
    | nil => exact absurd (List.cons.inj h).1.symm hcomma
    | cons t ts =>
      rw [List.flatMap_cons, List.flatMap_cons, List.append_assoc, List.append_assoc] at h
      obtain ⟨hst, hothers⟩ := hapart s List.mem_cons_self t List.mem_cons_self
        (stops_others hclose ss rest) (stops_others hclose ts other) (List.cons.inj h).2
      have hpieces : ∀ s ∈ ss, ∀ t ∈ ts, Apart s t :=
        fun s hs t ht => hapart s (List.mem_cons_of_mem _ hs) t (List.mem_cons_of_mem _ ht)
      obtain ⟨hrests, hrest⟩ := ih hpieces hothers
      rw [hst, hrests]
      exact ⟨rfl, hrest⟩

/-- Pieces with commas between them, none of which starts with the closing mark, are told apart one
by one up to that mark. -/
theorem commas_append_inj (hss : ∀ s ∈ ss, ∃ c s', s = c :: s' ∧ c ≠ close)
    (hts : ∀ t ∈ ts, ∃ c t', t = c :: t' ∧ c ≠ close) (hapart : ∀ s ∈ ss, ∀ t ∈ ts, Apart s t)
    (h : commas ss ++ close :: rest = commas ts ++ close :: other) : ss = ts ∧ rest = other := by
  cases ss with
  | nil =>
    cases ts with
    | nil => exact ⟨rfl, (List.cons.inj h).2⟩
    | cons t ts =>
      obtain ⟨c, t', ht, hc⟩ := hts t List.mem_cons_self
      rw [commas_cons, ht] at h
      exact absurd (List.cons.inj h).1.symm hc
  | cons s ss =>
    cases ts with
    | nil =>
      obtain ⟨c, s', hs, hc⟩ := hss s List.mem_cons_self
      rw [commas_cons, hs] at h
      exact absurd (List.cons.inj h).1 hc
    | cons t ts =>
      -- With a comma in front of both, all pieces have one in front of them.
      apply others_append_inj hclose hcomma hapart
      rw [commas_cons, commas_cons] at h
      exact congrArg (',' :: ·) h

end Closing

/-! ## Documents -/

/-- The text of a document does not start with a mark that closes an array or an object. -/
theorem Spelt.eq_cons {s : List Char} (h : Spelt s) :
    ∃ c s', s = c :: s' ∧ c ≠ ']' ∧ c ≠ '\x7d' := by
  cases h with
  | bare hne hbare =>
    obtain ⟨c, s', rfl⟩ := List.exists_cons_of_ne_nil hne
    have hc : isBare c = true := hbare c List.mem_cons_self
    refine ⟨c, s', rfl, ?_, ?_⟩
    · intro heq
      rw [heq] at hc
      cases hc
    · intro heq
      rw [heq] at hc
      cases hc
  | string text => exact ⟨'"', _, rfl, by decide, by decide⟩
  | array _ => exact ⟨'[', _, rfl, by decide, by decide⟩
  | object _ => exact ⟨'\x7b', _, rfl, by decide, by decide⟩

/-- Entries are told apart if the texts of their values are. -/
theorem Apart.entryText {a b : String × List Char} (h : Apart a.2 b.2) :
    Apart (entryText a) (entryText b) := by
  intro rest other hrest hother heq
  rw [Pushdown.entryText, Pushdown.entryText, List.append_assoc, List.append_assoc] at heq
  obtain ⟨hname, hvalue⟩ := writeString_append_inj heq
  obtain ⟨hvalues, hbehind⟩ := h hrest hother (List.cons.inj hvalue).2
  rw [Pushdown.entryText, Pushdown.entryText, hname, hvalues]
  exact ⟨rfl, hbehind⟩

theorem entryText_inj : Function.Injective entryText := by
  intro a b h
  obtain ⟨hname, hvalue⟩ := writeString_append_inj h
  exact Prod.ext hname (List.cons.inj hvalue).2

/-- Entries with commas between them are told apart one by one up to the closing brace if the texts
of their values are. -/
theorem entries_append_inj {entries others : List (String × List Char)} {rest behind : List Char}
    (hapart : ∀ a ∈ entries, ∀ b ∈ others, Apart a.2 b.2)
    (h : commas (entries.map entryText) ++ '\x7d' :: rest =
      commas (others.map entryText) ++ '\x7d' :: behind) : entries = others ∧ rest = behind := by
  have hquote {list : List (String × List Char)} :
      ∀ text ∈ list.map entryText, ∃ c s, text = c :: s ∧ c ≠ '\x7d' := by
    intro text htext
    obtain ⟨entry, _, rfl⟩ := List.mem_map.mp htext
    exact ⟨'"', _, rfl, by decide⟩
  have htexts : ∀ s ∈ entries.map entryText, ∀ t ∈ others.map entryText, Apart s t := by
    simp only [List.forall_mem_map]
    exact fun a ha b hb => (hapart a ha b hb).entryText
  exact (commas_append_inj rfl (by decide) hquote hquote htexts h).imp_left
    fun heq => List.map_injective_iff.mpr entryText_inj heq

/-- The texts of any two documents are told apart. -/
theorem Spelt.apart {s t : List Char} (hs : Spelt s) (ht : Spelt t) : Apart s t := by
  induction hs generalizing t with
  | bare hne hrun =>
    -- Texts of different shapes differ in their first character.
    cases ht with
    | bare _ hother => exact apart_bare hrun hother
    | string text => exact apart_mark hne hrun rfl
    | array _ => exact apart_mark hne hrun rfl
    | object _ => exact apart_mark hne hrun rfl
  | string text =>
    cases ht with
    | bare hne hrun => exact (apart_mark hne hrun rfl).symm
    | string other =>
      intro rest behind _ _ h
      obtain ⟨htext, hrest⟩ := writeString_append_inj h
      exact ⟨congrArg writeString htext, hrest⟩
    | array _ => exact apart_marks (by decide)
    | object _ => exact apart_marks (by decide)
  | @array items hitems ih =>
    cases ht with
    | bare hne hrun => exact (apart_mark hne hrun rfl).symm
    | string other => exact apart_marks (by decide)
    | @array others hothers =>
      intro rest behind _ _ h
      have hpieces : commas items ++ ']' :: rest = commas others ++ ']' :: behind := by
        simpa using h
      have hstart {list : List (List Char)} (hlist : ∀ item ∈ list, Spelt item) :
          ∀ item ∈ list, ∃ c s, item = c :: s ∧ c ≠ ']' := by
        intro item hitem
        obtain ⟨c, s, heq, hc, _⟩ := (hlist item hitem).eq_cons
        exact ⟨c, s, heq, hc⟩
      obtain ⟨heq, hrest⟩ := commas_append_inj rfl (by decide) (hstart hitems) (hstart hothers)
        (fun item hitem other hother => ih item hitem (hothers other hother)) hpieces
      rw [heq]
      exact ⟨rfl, hrest⟩
    | object _ => exact apart_marks (by decide)
  | @object fields hfields ih =>
    cases ht with
    | bare hne hrun => exact (apart_mark hne hrun rfl).symm
    | string other => exact apart_marks (by decide)
    | array _ => exact apart_marks (by decide)
    | @object others hothers =>
      intro rest behind _ _ h
      have hpieces : commas (fields.map entryText) ++ '\x7d' :: rest =
          commas (others.map entryText) ++ '\x7d' :: behind := by
        simpa using h
      obtain ⟨heq, hrest⟩ := entries_append_inj
        (fun field hfield other hother => ih field hfield (hothers other hother)) hpieces
      rw [heq]
      exact ⟨rfl, hrest⟩

/-! ## What is written -/

/-- The text of every document has one of the shapes. -/
theorem spelt_write (document : Json) : Spelt (write document) := by
  have hnull : Spelt nullText := .bare (List.cons_ne_nil _ _) (List.all_eq_true.mp rfl)
  have hnumeral {text : List Char} (hne : text ≠ [])
      (h : ∀ c ∈ text, isNumeralChar c = true) : Spelt text :=
    .bare hne fun c hc => forall_isNumeralChar (by decide) (by decide) c (h c hc)
  induction document using Json.inductionOnParts with
  | null => exact hnull
  | bool b =>
    cases b with
    | true => exact .bare (List.cons_ne_nil _ _) (List.all_eq_true.mp rfl)
    | false => exact .bare (List.cons_ne_nil _ _) (List.all_eq_true.mp rfl)
  | int n => exact hnumeral (ofInt_ne_nil n) (isNumeralChar_ofInt n)
  | double x =>
    show Spelt (x.document?.getD nullText)
    by_cases hfinite : x.isFinite = true
    · obtain ⟨text, htext, hne, hchars⟩ := document?_of_isFinite hfinite
      rw [htext]
      exact hnumeral hne hchars
    · rw [document?_of_not_isFinite (by simpa using hfinite)]
      exact hnull
  | string text => exact .string text
  | array items hitems =>
    rw [Json.write_array, Json.writeItems_eq_commas]
    exact .array (List.forall_mem_map.mpr hitems)
  | object fields hfields =>
    have htexts : fields.map Json.writeField =
        (fields.map fun field => (field.1, write field.2)).map entryText := by
      rw [List.map_map]
      rfl
    rw [Json.write_object, Json.writeFields_eq_commas, htexts]
    exact .object (List.forall_mem_map.mpr hfields)

/-- A line shows one list of entries. -/
theorem shows_unique {line : String} {entries others : List (String × List Char)}
    (hentries : ∀ entry ∈ entries, Spelt entry.2) (hothers : ∀ entry ∈ others, Spelt entry.2)
    (h : Shows line entries) (h' : Shows line others) : entries = others := by
  rw [Shows, h'] at h
  have hpieces := (List.cons.inj h).2
  exact (entries_append_inj (fun a ha b hb => (hothers a ha).apart (hentries b hb)) hpieces).1.symm

end Pushdown
