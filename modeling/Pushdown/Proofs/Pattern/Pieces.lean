import Pushdown.Proofs.Pattern.Expression

/-!
# Names in pieces

A name matches items if it can be cut into consecutive pieces, one for each item, so that every item
takes its piece. What matches instead is the expression of the items, so the proof goes over the
items of an expression in step with the pieces of a cut: behind the first item both go on alike
(`matches_iff_splits`), and the anchors leave no part of the name out (`found_iff_splits`). Main
statement: a pattern accepts a name just if the items that its text spells can take the pieces of
one cut of the name (`accepts_iff_splits`).
-/

namespace Pushdown.Pattern

open Regex

/-! ## Cutting a name -/

/-- A character of a range: the one it names, or one whose code point is between those of its
ends. -/
def Range.Covers : Range → Char → Prop
  | .single d, c => c = d
  | .between low high, c => low.toNat ≤ c.toNat ∧ c.toNat ≤ high.toNat

/-- Whether an item takes a piece of a name. -/
def Item.TakesPiece : Item → List Char → Prop
  | .anyRun, piece => ∀ c ∈ piece, c ≠ '/'
  | .anyOne, piece => ∃ c, piece = [c] ∧ c ≠ '/'
  | .set false ranges, piece => ∃ c, piece = [c] ∧ ∃ r ∈ ranges, r.Covers c
  | .set true ranges, piece => ∃ c, piece = [c] ∧ ∀ r ∈ ranges, ¬r.Covers c
  | .exactly d, piece => piece = [d]

/-- A name can be cut into pieces that the items take, each its own. -/
def Splits (items : List Item) (name : List Char) : Prop :=
  ∃ pieces, List.Forall₂ Item.TakesPiece items pieces ∧ pieces.flatten = name

theorem splits_nil_iff {name : List Char} : Splits [] name ↔ name = [] := by
  constructor
  · rintro ⟨pieces, hpieces, rfl⟩
    cases hpieces
    rfl
  · rintro rfl
    exact ⟨[], .nil, rfl⟩

theorem splits_cons_iff {item : Item} {rest : List Item} {name : List Char} :
    Splits (item :: rest) name ↔
      ∃ piece tail, name = piece ++ tail ∧ item.TakesPiece piece ∧ Splits rest tail := by
  constructor
  · rintro ⟨pieces, hpieces, rfl⟩
    cases hpieces with
    | cons hitem hrest => exact ⟨_, _, rfl, hitem, _, hrest, rfl⟩
  · rintro ⟨piece, tail, rfl, hitem, pieces, hrest, rfl⟩
    exact ⟨piece :: pieces, .cons hitem hrest, rfl⟩

/-! ## One item -/

theorem Range.covers_span {r : Range} {c : Char} : r.span.Covers c ↔ r.Covers c := by
  cases r with
  | single d =>
    constructor
    · rintro ⟨hlow, hhigh⟩
      exact Char.toNat_inj.mp (Nat.le_antisymm hhigh hlow)
    · rintro rfl
      exact ⟨Nat.le_refl _, Nat.le_refl _⟩
  | between low high => rfl

/-- A span of one character covers that one. -/
theorem covers_same {c d : Char} : Span.Covers ⟨d, d⟩ c ↔ c = d :=
  Range.covers_span (r := .single d)

theorem has_only {c d : Char} : (CharSet.only d).Has c ↔ c = d := by
  simp [CharSet.only, CharSet.Has, covers_same]

theorem has_allBut {c d : Char} : (CharSet.allBut d).Has c ↔ c ≠ d := by
  simp [CharSet.allBut, CharSet.Has, covers_same]

/-- The class of an item is that of its piece. -/
theorem has_ranges {negated : Bool} {ranges : List Range} {c : Char} :
    (⟨negated, ranges.map Range.span⟩ : CharSet).Has c ↔
      (Item.set negated ranges).TakesPiece [c] := by
  cases negated with
  | false => simp [CharSet.Has, Item.TakesPiece, Range.covers_span]
  | true => simp [CharSet.Has, Item.TakesPiece, Range.covers_span]

/-- A star takes the characters that its piece takes. -/
theorem takes_anyRun {c : Char} : Item.anyRun.piece.takes c = true ↔ c ≠ '/' :=
  CharSet.holds_iff.trans has_allBut

/-- An item other than a star takes single characters, those that its piece takes. -/
theorem Item.takesPiece_iff {item : Item} (h : item ≠ .anyRun) {piece : List Char} :
    item.TakesPiece piece ↔ ∃ c, piece = [c] ∧ item.piece.takes c = true := by
  cases item with
  | anyRun => exact absurd rfl h
  | anyOne => simp [TakesPiece, Item.piece, Piece.takes, CharSet.holds_iff, has_allBut]
  | set negated ranges =>
    simp only [Item.piece, Piece.takes, CharSet.holds_iff, has_ranges]
    cases negated with
    | false => simp [TakesPiece]
    | true => simp [TakesPiece]
  | exactly d => simp [TakesPiece, Item.piece, Piece.takes, CharSet.holds_iff, has_only]

/-- An item other than a star neither takes nothing nor more than one character. -/
theorem Item.piece_once {item : Item} (h : item ≠ .anyRun) (first last : Bool) :
    item.piece.skips first last = false ∧ item.piece.stays = false := by
  cases item with
  | anyRun => exact absurd rfl h
  | anyOne => exact ⟨rfl, rfl⟩
  | set negated ranges => exact ⟨rfl, rfl⟩
  | exactly d => exact ⟨rfl, rfl⟩

/-- Only stars take nothing. -/
theorem splits_empty_iff {item : Item} {rest : List Item} :
    Splits (item :: rest) [] ↔ item = .anyRun ∧ Splits rest [] := by
  rw [splits_cons_iff]
  constructor
  · rintro ⟨piece, tail, hname, hitem, hrest⟩
    obtain ⟨rfl, rfl⟩ := List.append_eq_nil_iff.mp hname.symm
    refine ⟨?_, hrest⟩
    by_contra hne
    obtain ⟨c, hc, _⟩ := (Item.takesPiece_iff hne).mp hitem
    cases hc
  · rintro ⟨rfl, hrest⟩
    exact ⟨[], [], rfl, List.forall_mem_nil _, hrest⟩

/-- A star takes a character and goes on, or has ended before it. -/
theorem splits_anyRun_iff {c : Char} {rest : List Item} {s : List Char} :
    Splits (.anyRun :: rest) (c :: s) ↔
      (c ≠ '/' ∧ Splits (.anyRun :: rest) s) ∨ Splits rest (c :: s) := by
  rw [splits_cons_iff]
  constructor
  · rintro ⟨piece, tail, hname, hitem, hrest⟩
    cases piece with
    | nil =>
      right
      rw [List.nil_append] at hname
      rw [hname]
      exact hrest
    | cons d piece =>
      left
      obtain ⟨rfl, rfl⟩ := List.cons.inj hname
      refine ⟨hitem c List.mem_cons_self, splits_cons_iff.mpr ⟨piece, tail, rfl, ?_, hrest⟩⟩
      exact fun d hd => hitem d (List.mem_cons_of_mem c hd)
  · rintro (⟨hc, hs⟩ | hrest)
    · obtain ⟨piece, tail, rfl, hitem, hrest⟩ := splits_cons_iff.mp hs
      refine ⟨c :: piece, tail, rfl, ?_, hrest⟩
      intro d hd
      rcases List.mem_cons.mp hd with rfl | hd
      · exact hc
      · exact hitem d hd
    · exact ⟨[], c :: s, rfl, List.forall_mem_nil _, hrest⟩

/-- An item other than a star takes the first character. -/
theorem splits_single_iff {item : Item} (h : item ≠ .anyRun) {c : Char} {rest : List Item}
    {s : List Char} :
    Splits (item :: rest) (c :: s) ↔ item.piece.takes c = true ∧ Splits rest s := by
  rw [splits_cons_iff]
  constructor
  · rintro ⟨piece, tail, hname, hitem, hrest⟩
    obtain ⟨d, rfl, hd⟩ := (Item.takesPiece_iff h).mp hitem
    obtain ⟨rfl, rfl⟩ := List.cons.inj hname
    exact ⟨hd, hrest⟩
  · rintro ⟨hc, hrest⟩
    exact ⟨[c], s, rfl, (Item.takesPiece_iff h).mpr ⟨c, rfl, hc⟩, hrest⟩

/-! ## Items and their expression -/

/-- The pieces of items, up to the end of a name, match just the cuts of the name. Whether anything
stands in front of the name makes no difference to them. -/
theorem matches_iff_splits {first : Bool} {items : List Item} {s : List Char} :
    Matches first (items.map Item.piece ++ [.finish]) s ↔ Splits items s := by
  induction items generalizing first s with
  | nil =>
    rw [splits_nil_iff]
    cases s with
    | nil => exact iff_of_true (.finish (.nil first [])) rfl
    | cons c s =>
      refine iff_of_false ?_ (List.cons_ne_nil c s)
      intro h
      cases h
  | cons item rest ih =>
    show Matches first (item.piece :: (rest.map Item.piece ++ [.finish])) s ↔ _
    by_cases hitem : item = .anyRun
    · subst hitem
      -- A star that takes a character stays, so what is left of the name is matched by it again.
      induction s generalizing first with
      | nil =>
        rw [matches_empty_iff, splits_empty_iff, ih]
        exact and_congr_left fun _ => iff_of_true rfl rfl
      | cons c s ihs =>
        rw [matches_cons_iff, splits_anyRun_iff, takes_anyRun, ih, ← @ihs false]
        exact or_congr Iff.rfl (and_iff_right rfl)
    · cases s with
      | nil => simp [matches_empty_iff, splits_empty_iff, (item.piece_once hitem), hitem]
      | cons c s =>
        obtain ⟨hskips, hstays⟩ := item.piece_once hitem first false
        rw [matches_cons_iff, splits_single_iff hitem, hskips, hstays,
          if_neg Bool.false_ne_true, ih]
        simp

/-- Between its anchors an expression takes the whole of a name. -/
theorem found_iff_splits {items : List Item} {s : List Char} :
    (regexOf items).Found s ↔ Splits items s := by
  rw [← @matches_iff_splits true]
  constructor
  · rintro ⟨before, after, rfl, h⟩
    obtain ⟨hstart, hrest⟩ : before.isEmpty = true ∧
        Matches true (items.map Item.piece ++ [.finish]) after := by
      generalize before.isEmpty = first at h
      cases h with
      | start h => exact ⟨rfl, h⟩
    rw [List.isEmpty_iff.mp hstart]
    exact hrest
  · intro h
    exact ⟨[], s, rfl, .start h⟩

/-- A pattern of items matches the names that can be cut for them. -/
theorem accepts_regexOf_iff {glob : String} {items : List Item} {name : String} :
    (⟨glob, regexOf items⟩ : Pattern).accepts name = true ↔ Splits items name.toList :=
  isMatch_iff_found.trans found_iff_splits

/-- A text that spells items is read as a pattern, and a pattern accepts a name just if the items
that its text spells, which are determined by the text, can take the pieces of one cut of the name.
What it matches with is the expression that is written for these items. -/
theorem accepts_iff_splits (glob : String) :
    ((∃ p, Pattern.read glob = .ok p) ↔ ∃ items, Spells glob.toList items) ∧
      ∀ p, Pattern.read glob = .ok p →
        ∃ items, Spells glob.toList items ∧ (∀ others, Spells glob.toList others → others = items) ∧
          Regex.read? (expression items) = some p.regex ∧
          ∀ name : String, p.accepts name = true ↔ Splits items name.toList := by
  refine ⟨exists_read_iff, ?_⟩
  intro p hread
  obtain ⟨items, hspells, rfl⟩ := read_eq_ok_iff.mp hread
  refine ⟨items, hspells, ?_, read_expression hspells.sound, fun name => accepts_regexOf_iff⟩
  intro others hothers
  rw [spells_iff] at hspells hothers
  rw [hspells] at hothers
  exact (Option.some.inj hothers).symm

/-- A class with a dash, a range and doubled ampersands, behind a dollar and before a star and an
escaped star. -/
theorem accepts_dollar_class :
    ∃ p items, Pattern.read "a$[^--/&&]*\\*" = .ok p ∧ Spells "a$[^--/&&]*\\*".toList items ∧
      Splits items "a$b\nc*".toList ∧ ¬Splits items "a$.*".toList := by
  have hread : Pattern.read "a$[^--/&&]*\\*" =
      .ok ⟨"a$[^--/&&]*\\*", regexOf [.exactly 'a', .exactly '$',
        .set true [.between '-' '/', .single '&', .single '&'], .anyRun, .exactly '*']⟩ := by
    decide +kernel
  obtain ⟨items, hspells, _, _, haccepts⟩ := (accepts_iff_splits _).2 _ hread
  refine ⟨_, items, hread, hspells, (haccepts _).mp (by decide +kernel), ?_⟩
  intro hsplits
  exact absurd ((haccepts _).mpr hsplits) (by decide +kernel)

end Pushdown.Pattern
