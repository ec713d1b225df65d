import Pushdown.Pattern
import Pushdown.Proofs.Pattern.Grammar
import Pushdown.Proofs.Regex.Matching

/-!
# Patterns as expressions

The expression of a pattern is read as one piece for each item between the two anchors, whatever
characters the items hold: every mark is written behind a backslash, where it stands for itself. An
item is read back in front of any other tokens (`pieces?_item`), and so is the whole expression
(`read_expression`). Main statements: reading a pattern gives the expression of the items that its
text spells, and it never fails for a text that spells items (`read_eq_ok_iff`).
-/

namespace Pushdown.Pattern

open Text.Backslash Regex

/-! ## The pieces of items -/

/-- The span of a range. -/
def Range.span : Range → Span
  | .single c => ⟨c, c⟩
  | .between low high => ⟨low, high⟩

/-- The piece of an item. -/
def Item.piece : Item → Piece
  | .anyRun => .many (.allBut '/')
  | .anyOne => .once (.allBut '/')
  | .set negated ranges => .once ⟨negated, ranges.map Range.span⟩
  | .exactly c => .once (.only c)

/-- The expression that items mean: their pieces between the anchors. -/
def regexOf (items : List Item) : Regex :=
  ⟨.start :: (items.map Item.piece ++ [.finish])⟩

/-- A range that does not run backwards. -/
def Range.Ordered : Range → Prop
  | .single _ => True
  | .between low high => low ≤ high

/-- An item of which the expression can be read: classes are not empty and their ranges do not run
backwards. -/
def Item.Sound : Item → Prop
  | .set _ ranges => ranges ≠ [] ∧ ∀ r ∈ ranges, r.Ordered
  | _ => True

theorem ClassText.ordered {s : List Char} {ranges : List Range} (h : ClassText s ranges) :
    ∀ r ∈ ranges, r.Ordered := by
  induction h with
  | nil => exact List.forall_mem_nil _
  | single _ _ _ ih => exact List.forall_mem_cons.mpr ⟨trivial, ih⟩
  | range _ _ hle _ ih => exact List.forall_mem_cons.mpr ⟨hle, ih⟩

/-- Items that a text spells are sound. -/
theorem Spells.sound {s : List Char} {items : List Item} (h : Spells s items) :
    ∀ item ∈ items, item.Sound := by
  induction h with
  | nil => exact List.forall_mem_nil _
  | anyRun _ ih => exact List.forall_mem_cons.mpr ⟨trivial, ih⟩
  | anyOne _ ih => exact List.forall_mem_cons.mpr ⟨trivial, ih⟩
  | escaped _ _ ih => exact List.forall_mem_cons.mpr ⟨trivial, ih⟩
  | plain _ _ ih => exact List.forall_mem_cons.mpr ⟨trivial, ih⟩
  | set htext hne _ _ ih => exact List.forall_mem_cons.mpr ⟨⟨hne, htext.ordered⟩, ih⟩
  | negatedSet htext hne _ ih => exact List.forall_mem_cons.mpr ⟨⟨hne, htext.ordered⟩, ih⟩

/-! ## The tokens of expressions -/

/-- The token of a character outside of classes: every mark is escaped. -/
def markToken (c : Char) : Token :=
  ⟨c, c ∈ marks⟩

/-- The token of a character inside of a class. -/
def classToken (c : Char) : Token :=
  ⟨c, c ∈ classMarks⟩

/-- The tokens of the expression of a range. -/
def Range.tokens : Range → List Token
  | .single c => [classToken c]
  | .between low high => classToken low :: ⟨'-', false⟩ :: [classToken high]

/-- The tokens of the expression of an item. -/
def Item.tokens : Item → List Token
  | .anyRun => plain ['[', '^', '/', ']', '*']
  | .anyOne => plain ['[', '^', '/', ']']
  | .set negated ranges =>
    ⟨'[', false⟩ :: (plain (if negated then ['^'] else []) ++ ranges.flatMap Range.tokens ++
      plain [']'])
  | .exactly c => [markToken c]

/-- The tokens of the expression of a whole pattern. -/
def tokensOf (items : List Item) : List Token :=
  ⟨'^', false⟩ :: (items.flatMap Item.tokens ++ plain ['$'])

theorem cuts_escape (c : Char) : Cuts (escape c) [markToken c] :=
  cuts_marked (by decide) c

theorem cuts_classChar (c : Char) : Cuts (classChar c) [classToken c] :=
  cuts_marked (by decide) c

theorem Range.cuts_expression (r : Range) : Cuts r.expression r.tokens := by
  cases r with
  | single c => exact cuts_classChar c
  | between low high =>
    exact (cuts_classChar low).append ((cuts_plain (s := ['-']) (by decide)).append
      (cuts_classChar high))

theorem Item.cuts_expression (item : Item) : Cuts item.expression item.tokens := by
  cases item with
  | anyRun => exact cuts_plain (by decide)
  | anyOne => exact cuts_plain (by decide)
  | set negated ranges =>
    have hcaret : '\\' ∉ (if negated then ['^'] else []) := by cases negated <;> decide
    have hranges := cuts_flatMap Range.cuts_expression ranges
    exact (cuts_plain (s := ['[']) (by decide)).append
      (((cuts_plain hcaret).append hranges).append (cuts_plain (by decide)))
  | exactly c => exact cuts_escape c

/-- The expression of a pattern is cut into the tokens that are written for it. -/
theorem tokens?_expression (items : List Item) :
    tokens? (expression items) = some (tokensOf items) := by
  have hitems := cuts_flatMap Item.cuts_expression items
  exact ((cuts_plain (s := ['^']) (by decide)).append
    (hitems.append (cuts_plain (by decide)))).tokens?

/-! ## Characters -/

/-- Behind a backslash every mark stands for itself. -/
theorem isEscapable_of_mem {c : Char} (h : c ∈ marks) : isEscapable c = true :=
  (List.all_eq_true (p := isEscapable)).mp (by decide) c h

/-- The token of a character is read as that character. -/
theorem token?_markToken (c : Char) (done : List Piece) :
    token? done (markToken c) = some (.once (.only c) :: done) := by
  by_cases hc : c ∈ marks
  · have htoken : markToken c = ⟨c, true⟩ := by simp [markToken, hc]
    rw [htoken, token?, if_pos (isEscapable_of_mem hc)]
  · have htoken : markToken c = ⟨c, false⟩ := by simp [markToken, hc]
    simp only [marks, List.mem_cons, List.not_mem_nil, or_false, not_or] at hc
    rw [htoken, token?]
    simp [hc]

theorem markToken_ne_bracket (c : Char) : markToken c ≠ ⟨'[', false⟩ := by
  intro h
  obtain ⟨rfl, hmark⟩ := Token.mk.inj h
  exact absurd hmark (by decide)

/-- What means something inside of a class can mean something outside of it too. -/
theorem mem_marks_of_classMarks : ∀ c ∈ classMarks, c ∈ marks := by
  simp [classMarks, marks]

/-- Inside of a class the token of a character is read as that character. -/
theorem member?_classToken (c : Char) : member? (classToken c) = some c := by
  by_cases hc : c ∈ classMarks
  · have htoken : classToken c = ⟨c, true⟩ := by simp [classToken, hc]
    rw [htoken, member?, if_pos (isEscapable_of_mem (mem_marks_of_classMarks c hc))]
  · have htoken : classToken c = ⟨c, false⟩ := by simp [classToken, hc]
    simp only [classMarks, List.mem_cons, List.not_mem_nil, or_false, not_or] at hc
    rw [htoken, member?]
    simp [hc]

/-- What means something inside of a class is never written plainly for a character. -/
theorem classToken_ne {c d : Char} (hd : d ∈ [']', '^', '-']) : classToken c ≠ ⟨d, false⟩ := by
  intro h
  obtain ⟨rfl, hmark⟩ := Token.mk.inj h
  simp only [List.mem_cons, List.not_mem_nil, or_false] at hd
  rcases hd with rfl | rfl | rfl <;> exact absurd hmark (by decide)

/-! ## Classes -/

variable {negated : Bool} {spans : List Span} {done : List Piece}

/-- A character that no dash follows is a span of its own. -/
theorem class?_single {c : Char} {rest : List Token} (hdash : ∀ ts, rest ≠ ⟨'-', false⟩ :: ts) :
    class? negated spans done (classToken c :: rest) =
      class? negated (spans ++ [⟨c, c⟩]) done rest := by
  rw [class?]
  · rw [member?_classToken]
  · exact classToken_ne (by decide)
  · exact fun high ts => hdash (high :: ts)

theorem class?_between {low high : Char} (hle : low ≤ high) (rest : List Token) :
    class? negated spans done (classToken low :: ⟨'-', false⟩ :: classToken high :: rest) =
      class? negated (spans ++ [⟨low, high⟩]) done rest := by
  rw [class?]
  · rw [member?_classToken, member?_classToken]
    exact if_neg (Char.not_lt.mpr hle)
  · exact classToken_ne (by decide)

/-- What is written of a class does not go on with a dash or a caret. -/
theorem tokens_ne_plain {d : Char} (hd : d ∈ ['^', '-']) (ranges : List Range) (rest : List Token) :
    ∀ ts, ranges.flatMap Range.tokens ++ ⟨']', false⟩ :: rest ≠ ⟨d, false⟩ :: ts := by
  intro ts h
  have hclass : d ∈ [']', '^', '-'] := List.mem_cons_of_mem _ hd
  cases ranges with
  | nil =>
    obtain ⟨hclose, _⟩ := List.cons.inj h
    obtain ⟨rfl, _⟩ := Token.mk.inj hclose
    exact absurd hd (by decide)
  | cons r ranges =>
    cases r with
    | single c => exact classToken_ne hclass (List.cons.inj h).1
    | between low high => exact classToken_ne hclass (List.cons.inj h).1

/-- The ranges of a class are read up to the bracket that closes it. -/
theorem class?_ranges {ranges : List Range} (hordered : ∀ r ∈ ranges, r.Ordered)
    (rest : List Token) (spans : List Span) (hne : spans ++ ranges.map Range.span ≠ []) :
    class? negated spans done (ranges.flatMap Range.tokens ++ ⟨']', false⟩ :: rest) =
      pieces? (.once ⟨negated, spans ++ ranges.map Range.span⟩ :: done) rest := by
  induction ranges generalizing spans with
  | nil =>
    rw [List.map_nil, List.append_nil] at hne ⊢
    show (if spans.isEmpty then none else pieces? (.once ⟨negated, spans⟩ :: done) rest) = _
    rw [if_neg (by simpa using hne)]
  | cons r ranges ih =>
    obtain ⟨hr, hranges⟩ := List.forall_mem_cons.mp hordered
    have hmore : ∀ span : Span, class? negated (spans ++ [span]) done
        (ranges.flatMap Range.tokens ++ ⟨']', false⟩ :: rest) =
          pieces? (.once ⟨negated, spans ++ span :: ranges.map Range.span⟩ :: done) rest := by
      intro span
      rw [ih hranges _ (by simp), List.append_assoc, List.singleton_append]
    cases r with
    | single c =>
      rw [List.map_cons, ← hmore]
      exact class?_single (tokens_ne_plain (by decide) ranges rest)
    | between low high =>
      rw [List.map_cons, ← hmore]
      exact class?_between hr _

/-! ## Items -/

/-- An item is read as its piece, whatever is written behind it. -/
theorem pieces?_item {item : Item} (h : item.Sound) (rest : List Token) :
    pieces? done (item.tokens ++ rest) = pieces? (item.piece :: done) rest := by
  cases item with
  | anyRun => rfl
  | anyOne => rfl
  | set negated ranges =>
    obtain ⟨hne, hordered⟩ := h
    have hclass : ∀ negated, class? negated [] done
        (ranges.flatMap Range.tokens ++ ⟨']', false⟩ :: rest) =
          pieces? (.once ⟨negated, ranges.map Range.span⟩ :: done) rest :=
      fun negated => class?_ranges hordered rest [] (by simpa using hne)
    have htokens : (Item.set negated ranges).tokens ++ rest =
        ⟨'[', false⟩ :: (plain (if negated then ['^'] else []) ++
          (ranges.flatMap Range.tokens ++ ⟨']', false⟩ :: rest)) := by
      simp [Item.tokens, plain]
    rw [htokens]
    cases negated with
    | true => exact hclass true
    | false =>
      refine Eq.trans ?_ (hclass false)
      show pieces? done (⟨'[', false⟩ :: (ranges.flatMap Range.tokens ++ ⟨']', false⟩ :: rest)) = _
      rw [pieces?]
      exact tokens_ne_plain (by decide) ranges rest
  | exactly c =>
    show pieces? done (markToken c :: rest) = _
    rw [pieces?]
    · rw [token?_markToken]
      rfl
    · exact fun _ hbracket _ => markToken_ne_bracket c hbracket
    · exact markToken_ne_bracket c

theorem pieces?_items {items : List Item} (h : ∀ item ∈ items, item.Sound) (rest : List Token) :
    pieces? done (items.flatMap Item.tokens ++ rest) =
      pieces? ((items.map Item.piece).reverse ++ done) rest := by
  induction items generalizing done with
  | nil => rfl
  | cons item items ih =>
    obtain ⟨hitem, hitems⟩ := List.forall_mem_cons.mp h
    rw [List.flatMap_cons, List.append_assoc, pieces?_item hitem, ih hitems, List.map_cons,
      List.reverse_cons, List.append_assoc, List.singleton_append]

/-- The expression of items is read as what they mean. -/
theorem read_expression {items : List Item} (h : ∀ item ∈ items, item.Sound) :
    Regex.read? (expression items) = some (regexOf items) := by
  have hpieces : pieces? [] (tokensOf items) = some (regexOf items).pieces := by
    show pieces? [.start] (items.flatMap Item.tokens ++ plain ['$']) = _
    rw [pieces?_items h]
    show some (List.reverse _) = _
    simp [regexOf]
  rw [Regex.read?, tokens?_expression, Option.bind_some, hpieces]
  rfl

/-- Marks of expressions are escaped wherever they stand, also twice in a row inside of a class. -/
example : expression [.exactly 'a', .exactly '$', .set true [.between '-' '/', .single '&',
    .single '&'], .anyRun, .exactly '*'] = "^a\\$[^\\--/\\&\\&][^/]*\\*$".toList := by
  decide

/-! ## Reading a pattern -/

/-- Reading a pattern gives the expression of what its text spells, and it never fails for a text
that spells something. -/
theorem read_eq_ok_iff {glob : String} {p : Pattern} :
    Pattern.read glob = .ok p ↔ ∃ items, Spells glob.toList items ∧ p = ⟨glob, regexOf items⟩ := by
  unfold Pattern.read
  constructor
  · intro h
    split at h
    · cases h
    · rename_i items hitems
      have hspells := spells_iff.mpr hitems
      rw [read_expression hspells.sound] at h
      exact ⟨items, hspells, (Except.ok.inj h).symm⟩
  · rintro ⟨items, hspells, rfl⟩
    rw [spells_iff.mp hspells]
    dsimp only
    rw [read_expression hspells.sound]

/-- A text is read just if it spells something. -/
theorem exists_read_iff {glob : String} :
    (∃ p, Pattern.read glob = .ok p) ↔ ∃ items, Spells glob.toList items := by
  constructor
  · rintro ⟨p, hp⟩
    obtain ⟨items, hitems, _⟩ := read_eq_ok_iff.mp hp
    exact ⟨items, hitems⟩
  · rintro ⟨items, hitems⟩
    exact ⟨_, read_eq_ok_iff.mpr ⟨items, hitems, rfl⟩⟩

theorem read_eq_malformed_iff {glob : String} :
    Pattern.read glob = .error (.malformed glob) ↔ ∀ items, ¬Spells glob.toList items := by
  unfold Pattern.read
  constructor
  · intro h items hspells
    rw [spells_iff.mp hspells] at h
    dsimp only at h
    rw [read_expression hspells.sound] at h
    cases h
  · intro h
    have hnone : (tokens? glob.toList).bind items? = none :=
      Option.eq_none_iff_forall_ne_some.mpr fun items hitems => h items (spells_iff.mpr hitems)
    rw [hnone]

end Pushdown.Pattern
