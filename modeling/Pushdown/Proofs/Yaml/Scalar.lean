import Mathlib
import Pushdown.Proofs.Json.Compact
import Pushdown.Yaml.Reader

/-!
# Scalars inside brackets and braces

Strings of compact documents are scalars between double quotes, and all that is escaped in them is
spelled alike in YAML. Main statements: a written string is read back from the front of any text
(`readInside_writeString`), and so is a word without quotes in front of a bracket, a brace or a
comma (`readPlain_word`).
-/

namespace Pushdown.Yaml

open Json (forall_writeString writeChar writeString)

/-- The characters that neither break a line nor have to be escaped to stand on one. -/
def isInline (c : Char) : Bool :=
  isAllowed c && 0x20 ≤ c.toNat && !isBreak c && c != '\u0085'

theorem isBreak_of_isInline {c : Char} (h : isInline c = true) : isBreak c = false := by
  simp only [isInline, Bool.and_eq_true, Bool.not_eq_true'] at h
  exact h.1.2

/-! ## Between double quotes -/

/-- Only the quote and the backslash are escaped on a line. -/
theorem writeChar_of_isInline {c : Char} (h : isInline c = true) (hquote : c ≠ '"')
    (hbackslash : c ≠ '\\') : writeChar c = [c] := by
  have hcontrol : ¬ c.toNat < 32 := by
    simp only [isInline, Bool.and_eq_true, decide_eq_true_eq] at h
    omega
  have hshort : ∀ k : Char, k.toNat < 32 → c ≠ k := by
    rintro k hk rfl
    exact hcontrol hk
  rw [writeChar, if_neg hquote, if_neg hbackslash, if_neg (hshort _ (by decide)),
    if_neg (hshort _ (by decide)), if_neg (hshort _ (by decide)), if_neg (hshort _ (by decide)),
    if_neg (hshort _ (by decide)), if_neg hcontrol]

/-- What is written for a character of a line stands on a line too. -/
theorem isInline_writeChar {c : Char} (h : isInline c = true) :
    ∀ written ∈ writeChar c, isInline written = true := by
  by_cases hquote : c = '"'
  · subst hquote
    exact List.all_eq_true.mp rfl
  by_cases hbackslash : c = '\\'
  · subst hbackslash
    exact List.all_eq_true.mp rfl
  · rw [writeChar_of_isInline h hquote hbackslash]
    intro written hwritten
    rw [List.mem_singleton.mp hwritten, h]

theorem isInline_writeString {text : String} (h : ∀ c ∈ text.toList, isInline c = true) :
    ∀ written ∈ writeString text, isInline written = true := by
  refine forall_writeString ?_ fun c hc => isInline_writeChar (h c hc)
  rfl

/-- A written character is read as the piece of itself. -/
theorem readDouble_writeChar {c : Char} (h : isInline c = true) (s : List Char) :
    readDouble (writeChar c ++ s) = addPiece (.ofChar c) (readDouble s) := by
  have hbreak : isBreak c = false := isBreak_of_isInline h
  by_cases hquote : c = '"'
  · subst hquote
    rfl
  by_cases hbackslash : c = '\\'
  · subst hbackslash
    rfl
  · rw [writeChar_of_isInline h hquote hbackslash, List.singleton_append, readDouble, hbreak]
    · rfl
    all_goals simp_all

theorem readDouble_flatMap {cs : List Char} (h : ∀ c ∈ cs, isInline c = true) (rest : List Char) :
    readDouble (cs.flatMap writeChar ++ '"' :: rest) = some (cs.map .ofChar, rest) := by
  induction cs with
  | nil => rfl
  | cons c cs ih =>
    rw [List.flatMap_cons, List.append_assoc, readDouble_writeChar (h c List.mem_cons_self),
      ih fun other hother => h other (List.mem_cons_of_mem c hother)]
    rfl

/-- Pieces on one line are the characters they were made of, blanks at the ends included. -/
theorem joinPieces_ofChar {cs : List Char} (h : ∀ c ∈ cs, isInline c = true)
    (blanks : List Char) : joinPieces blanks (cs.map .ofChar) = blanks ++ cs := by
  induction cs generalizing blanks with
  | nil => exact (List.append_nil blanks).symm
  | cons c cs ih =>
    have hbreak : isBreak c = false := isBreak_of_isInline (h c List.mem_cons_self)
    have hcs : ∀ other ∈ cs, isInline other = true :=
      fun other hother => h other (List.mem_cons_of_mem c hother)
    rw [List.map_cons, Piece.ofChar, hbreak]
    cases isBlank c with
    | true =>
      show joinPieces (blanks ++ [c]) (cs.map .ofChar) = _
      rw [ih hcs, List.append_assoc]
      rfl
    | false =>
      show blanks ++ c :: joinPieces [] (cs.map .ofChar) = _
      rw [ih hcs, List.nil_append]

/-- A written string is read up to its closing quote, whatever its text looks like. -/
theorem readInside_writeString {text : String} (h : ∀ c ∈ text.toList, isInline c = true)
    (indent fuel : Nat) (rest : List Char) :
    readInside indent (fuel + 1) (writeString text ++ rest) = some (.quoted text, rest) := by
  have hwrite : writeString text ++ rest =
      '"' :: (text.toList.flatMap writeChar ++ '"' :: rest) := by
    simp [writeString]
  rw [hwrite]
  show (readDouble (text.toList.flatMap writeChar ++ '"' :: rest)).map _ = _
  rw [readDouble_flatMap h]
  show some (Yaml.quoted (pieceText (text.toList.map .ofChar)), rest) = _
  rw [pieceText, joinPieces_ofChar h, List.nil_append, String.ofList_toList]

/-! ## Without quotes -/

/-- The characters that do not end a word, whatever follows them. -/
def isWordChar (c : Char) : Bool :=
  !isBlank c && !isBreak c && !isDivider c && c != ':'

/-- Texts that are at their end or start with a bracket, a brace or a comma. -/
def Divided (rest : List Char) : Prop :=
  ∀ c ∈ rest.head?, isDivider c = true

theorem divided_nil : Divided [] := by
  intro c hc
  cases hc

theorem divided_cons {c : Char} (rest : List Char) (h : isDivider c = true) :
    Divided (c :: rest) := by
  intro d hd
  cases hd
  exact h

theorem splitWord?_word {word rest : List Char} (hword : ∀ c ∈ word, isWordChar c = true)
    (hrest : Divided rest) : splitWord? true (word ++ rest) = some (word, rest) := by
  induction word with
  | nil =>
    cases rest with
    | nil => rfl
    | cons c rest =>
      have hdivider : isDivider c = true := hrest c rfl
      simp [splitWord?, endsWord, hdivider]
  | cons c word ih =>
    have hc : isWordChar c = true := hword c List.mem_cons_self
    simp only [isWordChar, Bool.and_eq_true, Bool.not_eq_true', bne_iff_ne] at hc
    obtain ⟨⟨⟨hblank, hbreak⟩, hdivider⟩, hcolon⟩ := hc
    have hword' : ∀ other ∈ word, isWordChar other = true :=
      fun other hother => hword other (List.mem_cons_of_mem c hother)
    rw [List.cons_append, splitWord?, ih hword']
    simp [endsWord, hblank, hbreak, hdivider, hcolon]

/-- Behind a word, nothing in front of a bracket, a brace or a comma goes on with it. -/
theorem splitPlain?_word {word rest : List Char} (hword : ∀ c ∈ word, isWordChar c = true)
    (hrest : Divided rest) (indent : Nat) :
    splitPlain? true indent (word ++ rest) = some (word, ⟨none, rest⟩) := by
  have hsplit := splitWord?_word hword hrest
  rw [splitPlain?]
  cases (word ++ rest).length with
  | zero => rw [splitWords?, hsplit]; rfl
  | succ words =>
    rw [splitWords?, hsplit]
    cases rest with
    | nil => rfl
    | cons c rest =>
      have hdivider : c ∈ [',', '[', ']', '\x7b', '\x7d'] :=
        List.contains_iff_mem.mp (hrest c rfl)
      simp only [List.mem_cons, List.not_mem_nil, or_false] at hdivider
      rcases hdivider with rfl | rfl | rfl | rfl | rfl <;> rfl

theorem readPlain_word {word rest : List Char} (hstart : startsPlain true (word ++ rest) = true)
    (hword : ∀ c ∈ word, isWordChar c = true) (hrest : Divided rest) (indent : Nat) :
    readPlain true indent (word ++ rest) = some (.plain (String.ofList word), ⟨none, rest⟩) := by
  rw [readPlain, if_pos hstart, splitPlain?_word hword hrest]
  rfl

end Pushdown.Yaml
