import Mathlib
import Pushdown.Filter
import Pushdown.Proofs.Text.Span

/-!
# Spellings of operators

An operator has several spellings, and some of them start with others. `Longest` says which one
counts: of all that a text begins with, the longest. The list that is searched has no spelling
before one that starts with it (`spellings_ordered`), so the first hit is the longest. Main
statements: an operator is split off exactly if its spelling is the longest
(`splitOperator_eq_ok_iff`), and a spelling can as well be looked for by cutting the text at its
number of bytes, since a cut inside of a character is no hit (`afterCut?_eq_some_iff`).
-/

namespace Pushdown.Filter

open Text

/-! ## Texts that begin with a spelling -/

/-- A text starts with a spelling, in any case of letters, and goes on with a rest. -/
def Spelled (spelling : String) (s rest : List Char) : Prop :=
  ∃ head, s = head ++ rest ∧ upper head = spelling.toList

/-- A spelling that is made of words, and not of symbols. -/
def IsWord (spelling : String) : Prop :=
  ∃ c, spelling.toList.head? = some c ∧ c.isAlpha = true

/-- A text begins with a spelling. A spelling that is made of words ends where a word ends. -/
structure Begins (spelling : String) (s rest : List Char) : Prop where
  spelled : Spelled spelling s rest
  ends : IsWord spelling → Stops isWordChar rest

/-- The longest of the spellings that a text begins with, its operator and what follows. -/
structure Longest (s : List Char) (spelling : String) (op : Operator) (rest : List Char) :
    Prop where
  listed : (spelling, op) ∈ spellings
  begins : Begins spelling s rest
  longest : ∀ other ∈ spellings, ∀ behind, Begins other.1 s behind →
    other.1.length ≤ spelling.length

theorem afterSpelling?_eq_some_iff {spelling s rest : List Char} :
    afterSpelling? spelling s = some rest ↔ ∃ head, s = head ++ rest ∧ upper head = spelling := by
  induction spelling generalizing s with
  | nil =>
    simp only [afterSpelling?, Option.some.injEq, upper, List.map_eq_nil_iff]
    constructor
    · rintro rfl
      exact ⟨[], rfl, rfl⟩
    · rintro ⟨_, rfl, rfl⟩
      rfl
  | cons c spelling ih =>
    cases s with
    | nil =>
      refine iff_of_false (fun h => by cases h) ?_
      rintro ⟨head, hs, hhead⟩
      rw [(List.append_eq_nil_iff.mp hs.symm).1] at hhead
      cases hhead
    | cons d s =>
      rw [afterSpelling?]
      constructor
      · intro h
        split at h
        · rename_i hc
          obtain ⟨head, rfl, rfl⟩ := ih.mp h
          exact ⟨d :: head, rfl, by rw [hc]; rfl⟩
        · cases h
      · rintro ⟨head, hs, hhead⟩
        cases head with
        | nil => cases hhead
        | cons e head =>
          obtain ⟨rfl, rfl⟩ := List.cons.inj hs
          obtain ⟨hc, hspelling⟩ := List.cons.inj hhead
          rw [if_pos hc.symm]
          exact ih.mpr ⟨head, rfl, hspelling⟩

/-- A spelling is typed with as many characters as it has. -/
theorem length_typed {spelling : String} {typed : List Char}
    (h : upper typed = spelling.toList) : typed.length = spelling.length := by
  rw [← String.length_toList, ← h, upper, List.length_map]

theorem isWord_iff {spelling : String} :
    IsWord spelling ↔ (spelling.toList.headD ' ').isAlpha = true := by
  unfold IsWord
  cases spelling.toList with
  | nil => simp
  | cons c rest => simp

theorem stops_isWordChar_iff {s : List Char} :
    Stops isWordChar s ↔ isWordChar (s.headD ' ') = false := by
  cases s with
  | nil => exact iff_of_true (stops_nil _) rfl
  | cons c s => exact ⟨fun h => h c rfl, fun h => stops_cons s h⟩

/-- What is behind an operator is found exactly if the text begins with it. -/
theorem afterOperator?_eq_some_iff {spelling : String} {s rest : List Char} :
    afterOperator? spelling.toList s = some rest ↔ Begins spelling s rest := by
  have hends : (IsWord spelling → Stops isWordChar rest) ↔
      ¬ ((spelling.toList.headD ' ').isAlpha && isWordChar (rest.headD ' ')) = true := by
    rw [isWord_iff, stops_isWordChar_iff, Bool.and_eq_true, not_and, Bool.not_eq_true]
  unfold afterOperator?
  constructor
  · intro h
    cases hafter : afterSpelling? spelling.toList s with
    | none =>
      rw [hafter] at h
      cases h
    | some behind =>
      rw [hafter] at h
      dsimp only at h
      split at h
      · cases h
      · rename_i hstop
        obtain rfl := Option.some.inj h
        exact ⟨afterSpelling?_eq_some_iff.mp hafter, hends.mpr hstop⟩
  · rintro ⟨hspelled, hstop⟩
    rw [afterSpelling?_eq_some_iff.mpr hspelled]
    dsimp only
    rw [if_neg (hends.mp hstop)]

/-! ## The longest spelling -/

/-- No spelling stands before one that starts with it. -/
theorem spellings_ordered :
    spellings.Pairwise fun p q => ¬ p.1.toList <+: q.1.toList := by
  decide +kernel

/-- Of two spellings that a text begins with, one starts with the other. -/
theorem Begins.comparable {one other : String} {s behind rest : List Char}
    (hone : Begins one s behind) (hother : Begins other s rest) :
    one.toList <+: other.toList ∨ other.toList <+: one.toList := by
  obtain ⟨head, hs, hhead⟩ := hone.spelled
  obtain ⟨head', hs', hhead'⟩ := hother.spelled
  have hprefix : head <+: s := ⟨behind, hs.symm⟩
  have hprefix' : head' <+: s := ⟨rest, hs'.symm⟩
  rw [← hhead, ← hhead']
  rcases List.prefix_or_prefix_of_prefix hprefix hprefix' with h | h
  · exact .inl (h.map Char.toUpper)
  · exact .inr (h.map Char.toUpper)

theorem length_le_of_prefix {one other : String} (h : one.toList <+: other.toList) :
    one.length ≤ other.length := by
  rw [← String.length_toList, ← String.length_toList]
  exact h.length_le

/-- The first hit in a list where no spelling stands before one that starts with it is the
longest. -/
theorem longest_of_firstOperator? {s : List Char} {operators : List (String × Operator)}
    (hordered : operators.Pairwise fun p q => ¬ p.1.toList <+: q.1.toList) {op : Operator}
    {value : List Char} (h : firstOperator? s operators = some (op, value)) :
    ∃ spelling rest, (spelling, op) ∈ operators ∧ Begins spelling s rest ∧ value = trim rest ∧
      ∀ other ∈ operators, ∀ behind, Begins other.1 s behind →
        other.1.length ≤ spelling.length := by
  induction operators with
  | nil => cases h
  | cons first operators ih =>
    obtain ⟨spelling, op'⟩ := first
    obtain ⟨hfirst, hrest⟩ := List.pairwise_cons.mp hordered
    rw [firstOperator?] at h
    cases hafter : afterOperator? spelling.toList s with
    | some rest =>
      rw [hafter] at h
      obtain ⟨rfl, rfl⟩ := Prod.mk.inj (Option.some.inj h)
      have hbegins := afterOperator?_eq_some_iff.mp hafter
      refine ⟨spelling, rest, List.mem_cons_self, hbegins, rfl, ?_⟩
      intro other hother behind hbehind
      rcases List.mem_cons.mp hother with rfl | hmem
      · exact Nat.le_refl _
      · -- The other one stands behind, so it can only be the shorter of the two.
        rcases hbegins.comparable hbehind with hlonger | hshorter
        · exact absurd hlonger (hfirst other hmem)
        · exact length_le_of_prefix hshorter
    | none =>
      rw [hafter] at h
      obtain ⟨found, rest, hlisted, hbegins, hvalue, hlongest⟩ := ih hrest h
      refine ⟨found, rest, List.mem_cons_of_mem _ hlisted, hbegins, hvalue, ?_⟩
      intro other hother behind hbehind
      rcases List.mem_cons.mp hother with rfl | hmem
      · rw [afterOperator?_eq_some_iff.mpr hbehind] at hafter
        cases hafter
      · exact hlongest other hmem behind hbehind

/-- A text that begins with one of the spellings is split. -/
theorem firstOperator?_ne_none {s rest : List Char} {operators : List (String × Operator)}
    {spelling : String} {op : Operator} (hlisted : (spelling, op) ∈ operators)
    (hbegins : Begins spelling s rest) : firstOperator? s operators ≠ none := by
  induction operators with
  | nil => cases hlisted
  | cons first operators ih =>
    obtain ⟨spelling', op'⟩ := first
    rw [firstOperator?]
    cases hafter : afterOperator? spelling'.toList s with
    | some behind => exact Option.some_ne_none _
    | none =>
      rcases List.mem_cons.mp hlisted with heq | hmem
      · obtain ⟨rfl, rfl⟩ := Prod.mk.inj heq
        rw [afterOperator?_eq_some_iff.mpr hbegins] at hafter
        cases hafter
      · exact ih hmem

/-- No spelling has two operators. -/
theorem operator_unique : ∀ p ∈ spellings, ∀ q ∈ spellings, p.1 = q.1 → p.2 = q.2 := by
  decide +kernel

/-- There is only one longest spelling. -/
theorem Longest.unique {s rest behind : List Char} {spelling other : String} {op op' : Operator}
    (h : Longest s spelling op rest) (h' : Longest s other op' behind) :
    op = op' ∧ rest = behind := by
  have hlength : spelling.length = other.length :=
    Nat.le_antisymm (h'.longest _ h.listed _ h.begins) (h.longest _ h'.listed _ h'.begins)
  obtain ⟨head, hs, hhead⟩ := h.begins.spelled
  obtain ⟨head', hs', hhead'⟩ := h'.begins.spelled
  have hheads : head.length = head'.length := by
    rw [length_typed hhead, length_typed hhead', hlength]
  obtain ⟨rfl, rfl⟩ := List.append_inj (hs.symm.trans hs') hheads
  have hsame : spelling = other := String.toList_inj.mp (hhead.symm.trans hhead')
  exact ⟨operator_unique _ h.listed _ h'.listed hsame, rfl⟩

/-- An operator is split off exactly if its spelling is the longest that the text begins with. -/
theorem splitOperator_eq_ok_iff {s value : List Char} {op : Operator} :
    splitOperator s = .ok (op, value) ↔
      ∃ spelling rest, Longest s spelling op rest ∧ value = trim rest := by
  have hfound : ∀ {op' value'}, firstOperator? s spellings = some (op', value') →
      ∃ spelling rest, Longest s spelling op' rest ∧ value' = trim rest := by
    intro op' value' h
    obtain ⟨spelling, rest, hlisted, hbegins, hvalue, hlongest⟩ :=
      longest_of_firstOperator? spellings_ordered h
    exact ⟨spelling, rest, ⟨hlisted, hbegins, hlongest⟩, hvalue⟩
  unfold splitOperator
  constructor
  · intro h
    split at h
    · rename_i split hsplit
      obtain rfl := Except.ok.inj h
      exact hfound hsplit
    · cases h
  · rintro ⟨spelling, rest, hlongest, rfl⟩
    cases hsplit : firstOperator? s spellings with
    | none => exact absurd hsplit (firstOperator?_ne_none hlongest.listed hlongest.begins)
    | some split =>
      obtain ⟨op', value'⟩ := split
      obtain ⟨other, behind, hother, rfl⟩ := hfound hsplit
      obtain ⟨rfl, rfl⟩ := hlongest.unique hother
      rfl

/-! ## Cutting by bytes -/

/-- Cuts a text behind so many bytes of UTF-8. There is no such cut inside of a character or behind
the end. -/
def cutAt? : List Char → Nat → Option (List Char × List Char)
  | [], bytes => if bytes = 0 then some ([], []) else none
  | c :: s, bytes =>
    if bytes = 0 then some ([], c :: s)
    else if c.utf8Size ≤ bytes then
      (cutAt? s (bytes - c.utf8Size)).map fun cut => (c :: cut.1, cut.2)
    else none

/-- What follows a spelling at the start of a text, found by cutting the text at the number of bytes
of the spelling. -/
def afterCut? (spelling : String) (s : List Char) : Option (List Char) :=
  match cutAt? s spelling.utf8ByteSize with
  | some (head, rest) => if upper head = upper spelling.toList then some rest else none
  | none => none

/-- A cut that is found has so many bytes in front of it. -/
theorem cutAt?_eq_some_iff {s head rest : List Char} {bytes : Nat} :
    cutAt? s bytes = some (head, rest) ↔ s = head ++ rest ∧ String.utf8Len head = bytes := by
  induction s generalizing head bytes with
  | nil =>
    rw [cutAt?]
    constructor
    · intro h
      split at h
      · rename_i hbytes
        cases h
        exact ⟨rfl, hbytes.symm⟩
      · cases h
    · rintro ⟨hs, rfl⟩
      obtain ⟨rfl, rfl⟩ := List.append_eq_nil_iff.mp hs.symm
      rfl
  | cons c s ih =>
    have hpos := c.utf8Size_pos
    rw [cutAt?]
    constructor
    · intro h
      split at h
      · rename_i hbytes
        cases h
        exact ⟨rfl, hbytes.symm⟩
      · split at h
        · rename_i hle
          obtain ⟨⟨head', rest'⟩, hcut, heq⟩ := Option.map_eq_some_iff.mp h
          obtain ⟨rfl, rfl⟩ := Prod.mk.inj heq
          obtain ⟨rfl, hlen⟩ := ih.mp hcut
          refine ⟨rfl, ?_⟩
          rw [String.utf8Len_cons, hlen]
          omega
        · cases h
    · rintro ⟨hs, rfl⟩
      cases head with
      | nil =>
        obtain rfl : c :: s = rest := hs
        rfl
      | cons d head =>
        rw [List.cons_append] at hs
        obtain ⟨rfl, rfl⟩ := List.cons.inj hs
        have hcut : cutAt? (head ++ rest) (String.utf8Len head) = some (head, rest) :=
          ih.mpr ⟨rfl, rfl⟩
        rw [String.utf8Len_cons, if_neg (by omega), if_pos (by omega), Nat.add_sub_cancel, hcut]
        rfl

/-- ASCII letters take one byte. -/
theorem utf8Size_of_isAlpha {c : Char} (h : c.isAlpha = true) : c.utf8Size = 1 := by
  rw [Char.utf8Size_eq_one_iff]
  simp only [Char.isAlpha, Char.isUpper, Char.isLower, ge_iff_le, Char.reduceVal,
    UInt32.le_iff_toNat_le, UInt32.reduceToNat, Char.toNat_val, Bool.or_eq_true, Bool.and_eq_true,
    decide_eq_true_eq] at h ⊢
  omega

/-- Capitals take as many bytes as small letters. -/
theorem utf8Size_toUpper (c : Char) : c.toUpper.utf8Size = c.utf8Size := by
  by_cases hlower : c.isLower = true
  · have hsmall : c.isAlpha = true := by simp [Char.isAlpha, hlower]
    rw [utf8Size_of_isAlpha hsmall, utf8Size_of_isAlpha (by simpa using hsmall)]
  · rw [Char.toUpper_eq_of_not_isLower hlower]

theorem utf8Len_upper (s : List Char) : String.utf8Len (upper s) = String.utf8Len s := by
  induction s with
  | nil => rfl
  | cons c s ih =>
    show String.utf8Len (c.toUpper :: upper s) = _
    rw [String.utf8Len_cons, String.utf8Len_cons, ih, utf8Size_toUpper]

/-- The spellings are in capitals. -/
theorem upper_spelling : ∀ p ∈ spellings, upper p.1.toList = p.1.toList := by
  decide +kernel

/-- Cutting a text by bytes finds a spelling exactly where it stands, whatever characters come
behind it. -/
theorem afterCut?_eq_some_iff {spelling : String}
    (hupper : upper spelling.toList = spelling.toList) {s rest : List Char} :
    afterCut? spelling s = some rest ↔ Spelled spelling s rest := by
  have hbytes : spelling.utf8ByteSize = String.utf8Len spelling.toList := by
    rw [← String.utf8ByteSize_ofList, String.ofList_toList]
  unfold afterCut?
  rw [hbytes, hupper]
  constructor
  · intro h
    split at h
    · rename_i head behind hcut
      split at h
      · rename_i hhead
        obtain rfl := Option.some.inj h
        exact ⟨head, (cutAt?_eq_some_iff.mp hcut).1, hhead⟩
      · cases h
    · cases h
  · rintro ⟨head, hs, hhead⟩
    have hcut : cutAt? s (String.utf8Len spelling.toList) = some (head, rest) := by
      rw [cutAt?_eq_some_iff, ← hhead, utf8Len_upper]
      exact ⟨hs, rfl⟩
    rw [hcut]
    dsimp only
    rw [if_pos hhead]

end Pushdown.Filter
