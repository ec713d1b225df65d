import Pushdown.Pattern.Item
import Pushdown.Proofs.Text.Backslash

/-!
# The grammar of patterns

What a text spells, as a relation between characters and items that does not look at how items are
read. Main statement: reading gives exactly what the text spells (`spells_iff`). A text is read in
two steps, so the proof goes through the tokens of the text. What a text spells is read in front of
any other text (`bind_spells`).
-/

namespace Pushdown.Pattern

open Text.Backslash

/-! ## What a text spells -/

/-- The text of a character at an end of a range: a backslash and any character, or any character
but a backslash and a closing bracket. -/
inductive EndText : Char → List Char → Prop
  | escaped (c : Char) : EndText c ['\\', c]
  | plain {c : Char} : c ≠ '\\' → c ≠ ']' → EndText c [c]

/-- The text of the ranges of a class. A character that a dash follows always starts a range with
two ends. -/
inductive ClassText : List Char → List Range → Prop
  | nil : ClassText [] []
  | single {c : Char} {t s : List Char} {ranges : List Range} :
      EndText c t → s.head? ≠ some '-' → ClassText s ranges →
        ClassText (t ++ s) (.single c :: ranges)
  | range {low high : Char} {t u s : List Char} {ranges : List Range} :
      EndText low t → EndText high u → low ≤ high → ClassText s ranges →
        ClassText (t ++ '-' :: (u ++ s)) (.between low high :: ranges)

/-- The items that a text spells. A class has at least one range, and a caret behind its opening
bracket always negates it. -/
inductive Spells : List Char → List Item → Prop
  | nil : Spells [] []
  | anyRun {s : List Char} {items : List Item} :
      Spells s items → Spells ('*' :: s) (.anyRun :: items)
  | anyOne {s : List Char} {items : List Item} :
      Spells s items → Spells ('?' :: s) (.anyOne :: items)
  | escaped (c : Char) {s : List Char} {items : List Item} :
      Spells s items → Spells ('\\' :: c :: s) (.exactly c :: items)
  | plain {c : Char} {s : List Char} {items : List Item} :
      c ∉ ['*', '?', '\\', '['] → Spells s items → Spells (c :: s) (.exactly c :: items)
  | set {t s : List Char} {ranges : List Range} {items : List Item} :
      ClassText t ranges → ranges ≠ [] → t.head? ≠ some '^' → Spells s items →
        Spells ('[' :: (t ++ ']' :: s)) (.set false ranges :: items)
  | negatedSet {t s : List Char} {ranges : List Range} {items : List Item} :
      ClassText t ranges → ranges ≠ [] → Spells s items →
        Spells ('[' :: '^' :: (t ++ ']' :: s)) (.set true ranges :: items)

/-! ## Ends of ranges in tokens -/

/-- The characters at an end of a range are those of the tokens other than a plain closing
bracket. -/
theorem endText_iff {c : Char} {s : List Char} :
    EndText c s ↔ ∃ t : Token, t.char = c ∧ s = t.text ∧ t.Valid ∧ t ≠ ⟨']', false⟩ := by
  constructor
  · intro h
    cases h with
    | escaped => exact ⟨⟨c, true⟩, rfl, rfl, .inl rfl, by simp⟩
    | plain hslash hclose => exact ⟨⟨c, false⟩, rfl, rfl, .inr hslash, by simp [hclose]⟩
  · rintro ⟨⟨d, escaped⟩, rfl, rfl, hvalid, hne⟩
    cases escaped with
    | true => exact .escaped d
    | false =>
      refine .plain (hvalid.resolve_left Bool.false_ne_true) ?_
      rintro rfl
      exact hne rfl

/-! ## What is read is spelled -/

/-- The text of a class of which some ranges have been read already: more ranges, the closing
bracket and the text of the items behind it. -/
def ClassSpells (negated : Bool) (ranges : List Range) (s : List Char) (all : List Item) : Prop :=
  ∃ t r more items, s = t ++ ']' :: r ∧ ClassText t more ∧ ranges ++ more ≠ [] ∧ Spells r items ∧
    all = .set negated (ranges ++ more) :: items

/-- Another range in front of the text of a class. -/
theorem ClassSpells.cons {negated : Bool} {ranges : List Range} {span : Range} {t s : List Char}
    {all : List Item} (h : ClassSpells negated (ranges ++ [span]) s all)
    (hspan : ∀ u r, s = u ++ ']' :: r → ∀ more, ClassText u more →
      ClassText (t ++ u) (span :: more)) :
    ClassSpells negated ranges (t ++ s) all := by
  obtain ⟨u, r, more, items, rfl, htext, _, hitems, rfl⟩ := h
  refine ⟨t ++ u, r, span :: more, items, (List.append_assoc ..).symm, hspan u r rfl more htext,
    by simp, hitems, ?_⟩
  rw [List.append_assoc, List.singleton_append]

/-- Whatever items are read from tokens, the text of the tokens spells them. -/
def ItemsSound (ts : List Token) : Prop :=
  ∀ items s, items? ts = some items → tokens? s = some ts → Spells s items

/-- Whatever items are read from tokens inside a class, the text of the tokens spells them. -/
def ClassSound (negated : Bool) (ranges : List Range) (ts : List Token) : Prop :=
  ∀ all s, setItems? negated ranges ts = some all → tokens? s = some ts →
    ClassSpells negated ranges s all

theorem not_mark {c : Char} (h : c ∉ ['*', '?', '\\', '[']) : c ∉ ['*', '?', '['] := by
  simp only [List.mem_cons, List.not_mem_nil, or_false, not_or] at h ⊢
  exact ⟨h.1, h.2.1, h.2.2.2⟩

theorem ItemsSound.set {rest : List Token} (hcaret : ∀ ts, rest ≠ ⟨'^', false⟩ :: ts)
    (ih : ClassSound false [] rest) : ItemsSound (⟨'[', false⟩ :: rest) := by
  intro items s h hs
  rw [items?_class hcaret] at h
  obtain ⟨r, rfl, _, hr⟩ := tokens?_eq_cons_iff.mp hs
  obtain ⟨t, r, ranges, items, rfl, htext, hne, hitems, rfl⟩ := ih items r h hr
  refine .set htext hne ?_ hitems
  -- a caret at the start would be the first token, and the class would be a negated one
  intro hhead
  cases t with
  | nil => cases hhead
  | cons c t =>
    cases hhead
    obtain ⟨ts, hts⟩ := tokens?_plain (by decide) hr
    exact hcaret ts hts

theorem ItemsSound.exactly {c : Char} {escaped : Bool} {rest : List Token}
    (hstar : c = '*' → escaped = false → False) (hquestion : c = '?' → escaped = false → False)
    (hclass : c = '[' → escaped = false → False) (ih : ItemsSound rest) :
    ItemsSound (⟨c, escaped⟩ :: rest) := by
  intro items s h hs
  obtain ⟨r, rfl, hvalid, hr⟩ := tokens?_eq_cons_iff.mp hs
  cases escaped with
  | true =>
    rw [items?_exactly (.inl rfl)] at h
    obtain ⟨items, hrest, rfl⟩ := Option.map_eq_some_iff.mp h
    exact .escaped c (ih items r hrest hr)
  | false =>
    have hslash : c ≠ '\\' := hvalid.resolve_left Bool.false_ne_true
    have hplain : c ∉ ['*', '?', '\\', '['] := by
      simp only [List.mem_cons, List.not_mem_nil, or_false]
      rintro (rfl | rfl | rfl | rfl)
      · exact hstar rfl rfl
      · exact hquestion rfl rfl
      · exact hslash rfl
      · exact hclass rfl rfl
    rw [items?_exactly (.inr (not_mark hplain))] at h
    obtain ⟨items, hrest, rfl⟩ := Option.map_eq_some_iff.mp h
    exact .plain hplain (ih items r hrest hr)

theorem ClassSound.close {negated : Bool} {ranges : List Range} {rest : List Token}
    (hne : ¬ranges.isEmpty = true) (ih : ItemsSound rest) :
    ClassSound negated ranges (⟨']', false⟩ :: rest) := by
  intro all s h hs
  rw [setItems?_close, if_neg hne] at h
  obtain ⟨items, hrest, rfl⟩ := Option.map_eq_some_iff.mp h
  obtain ⟨r, rfl, _, hr⟩ := tokens?_eq_cons_iff.mp hs
  refine ⟨[], r, [], items, rfl, .nil, ?_, ih items r hrest hr, ?_⟩
  · simpa using hne
  · rw [List.append_nil]

theorem ClassSound.range {negated : Bool} {ranges : List Range} {low high : Token}
    {rest : List Token} (hlow : low ≠ ⟨']', false⟩) (hhigh : high ≠ ⟨']', false⟩)
    (hle : ¬high.char < low.char)
    (ih : ClassSound negated (ranges ++ [.between low.char high.char]) rest) :
    ClassSound negated ranges (low :: ⟨'-', false⟩ :: high :: rest) := by
  intro all s h hs
  obtain ⟨r, rfl, hvalid, hr⟩ := tokens?_eq_cons_iff.mp hs
  obtain ⟨r, rfl, _, hr⟩ := tokens?_eq_cons_iff.mp hr
  obtain ⟨r, rfl, hvalid', hr⟩ := tokens?_eq_cons_iff.mp hr
  rw [setItems?_range hlow hhigh, if_neg hle] at h
  have hrest := ih all r h hr
  have hassoc : low.text ++ (Token.text ⟨'-', false⟩ ++ (high.text ++ r)) =
      low.text ++ '-' :: high.text ++ r := by
    rw [List.append_assoc]
    rfl
  rw [hassoc]
  refine hrest.cons fun u _ _ more hu => ?_
  rw [List.append_assoc]
  exact .range (endText_iff.mpr ⟨low, rfl, rfl, hvalid, hlow⟩)
    (endText_iff.mpr ⟨high, rfl, rfl, hvalid', hhigh⟩) (Char.not_lt.mp hle) hu

theorem ClassSound.single {negated : Bool} {ranges : List Range} {single : Token}
    {rest : List Token} (hsingle : single ≠ ⟨']', false⟩)
    (hdash : ∀ ts, rest ≠ ⟨'-', false⟩ :: ts)
    (ih : ClassSound negated (ranges ++ [.single single.char]) rest) :
    ClassSound negated ranges (single :: rest) := by
  intro all s h hs
  obtain ⟨r, rfl, hvalid, hr⟩ := tokens?_eq_cons_iff.mp hs
  rw [setItems?_single hsingle hdash] at h
  refine (ih all r h hr).cons fun u t hu more htext => ?_
  refine .single (endText_iff.mpr ⟨single, rfl, rfl, hvalid, hsingle⟩) ?_ htext
  -- a dash here would be the first token of the rest
  intro hhead
  cases u with
  | nil => cases hhead
  | cons c u =>
    cases hhead
    rw [hu] at hr
    obtain ⟨ts, hts⟩ := tokens?_plain (by decide) hr
    exact hdash ts hts

/-- One induction over the reading of items and of classes. -/
theorem reading_sound :
    (∀ ts, ItemsSound ts) ∧ ∀ negated ranges ts, ClassSound negated ranges ts := by
  apply items?.mutual_induct ItemsSound ClassSound
  · intro items s h hs
    cases h
    rw [tokens?_eq_nil_iff.mp hs]
    exact .nil
  · intro rest ih items s h hs
    obtain ⟨items, hrest, rfl⟩ := Option.map_eq_some_iff.mp h
    obtain ⟨r, rfl, _, hr⟩ := tokens?_eq_cons_iff.mp hs
    exact .anyRun (ih items r hrest hr)
  · intro rest ih items s h hs
    obtain ⟨items, hrest, rfl⟩ := Option.map_eq_some_iff.mp h
    obtain ⟨r, rfl, _, hr⟩ := tokens?_eq_cons_iff.mp hs
    exact .anyOne (ih items r hrest hr)
  · intro rest ih items s h hs
    obtain ⟨r, rfl, _, hr⟩ := tokens?_eq_cons_iff.mp hs
    obtain ⟨r, rfl, _, hr⟩ := tokens?_eq_cons_iff.mp hr
    obtain ⟨t, r, ranges, items, rfl, htext, hne, hitems, rfl⟩ := ih items r h hr
    exact .negatedSet htext hne hitems
  · exact fun rest hcaret ih => .set hcaret ih
  · exact fun c escaped rest hstar hquestion _ hclass ih => .exactly hstar hquestion hclass ih
  -- a class that goes wrong has no items, in whichever of the five ways
  · intro negated ranges all s h
    cases h
  · intro negated ranges rest hempty all s h
    rw [setItems?_close, if_pos hempty] at h
    cases h
  · exact fun negated ranges rest hne ih => .close hne ih
  · intro negated ranges low hlow all s h
    rw [setItems?_halfRange hlow (.inl rfl)] at h
    cases h
  · intro negated ranges low tail hlow all s h
    rw [setItems?_halfRange hlow (.inr ⟨tail, rfl⟩)] at h
    cases h
  · intro negated ranges low high rest hlow hhigh hlt all s h
    rw [setItems?_range hlow hhigh, if_pos hlt] at h
    cases h
  · exact fun negated ranges low high rest hlow hhigh hle ih => .range hlow hhigh hle ih
  · intro negated ranges single rest hsingle hend _ hrange ih
    refine .single hsingle ?_ ih
    rintro (_ | ⟨high, ts⟩)
    · exact hend
    · exact hrange high ts

/-! ## What is spelled is read -/

/-- The text of a class goes on with the characters of its ranges. -/
theorem head?_bracket {c : Char} (hc : c ≠ ']') {t r : List Char} (h : t.head? ≠ some c) :
    (t ++ ']' :: r).head? ≠ some c := by
  cases t with
  | nil => exact fun hhead => hc (Option.some.inj hhead).symm
  | cons d t => exact h

/-- A character that no dash follows is a range of its own. -/
theorem bind_single {negated : Bool} {ranges : List Range} {single : Token} {s : List Char}
    (hvalid : single.Valid) (hsingle : single ≠ ⟨']', false⟩) (hdash : s.head? ≠ some '-') :
    (tokens? (single.text ++ s)).bind (setItems? negated ranges) =
      (tokens? s).bind (setItems? negated (ranges ++ [.single single.char])) := by
  rw [bind_text hvalid]
  refine Option.bind_congr fun ts hts => ?_
  refine setItems?_single hsingle ?_
  rintro ts' rfl
  obtain ⟨r, rfl, _⟩ := tokens?_eq_cons_iff.mp hts
  exact hdash rfl

/-- Two ends with a dash between them are a range if they do not run backwards. -/
theorem bind_range {negated : Bool} {ranges : List Range} {low high : Token}
    (hvalid : low.Valid) (hlow : low ≠ ⟨']', false⟩) (hvalid' : high.Valid)
    (hhigh : high ≠ ⟨']', false⟩) (s : List Char) :
    (tokens? (low.text ++ '-' :: (high.text ++ s))).bind (setItems? negated ranges) =
      if high.char < low.char then none
      else (tokens? s).bind (setItems? negated (ranges ++ [.between low.char high.char])) := by
  rw [bind_text hvalid, bind_plain (by decide), bind_text hvalid']
  simp only [setItems?_range hlow hhigh]
  split
  · exact Option.bind_fun_none _
  · rfl

/-- The ranges of a class are read up to its closing bracket. -/
theorem bind_classText {negated : Bool} {t : List Char} {more : List Range} (h : ClassText t more)
    (r : List Char) :
    ∀ ranges, ranges ++ more ≠ [] →
      (tokens? (t ++ ']' :: r)).bind (setItems? negated ranges) =
        ((tokens? r).bind items?).map (.set negated (ranges ++ more) :: ·) := by
  induction h with
  | nil =>
    intro ranges hne
    rw [List.append_nil] at hne ⊢
    rw [List.nil_append, bind_plain (by decide), Option.map_bind]
    refine Option.bind_congr fun ts _ => ?_
    rw [setItems?_close, if_neg (by simpa using hne)]
    rfl
  | @single c t s more hend hdash _ ih =>
    intro ranges _
    obtain ⟨single, rfl, rfl, hvalid, hsingle⟩ := endText_iff.mp hend
    rw [List.append_assoc, bind_single hvalid hsingle (head?_bracket (by decide) hdash),
      ih _ (by simp), List.append_assoc]
    rfl
  | @range _ _ t u s more hlow hhigh hle _ ih =>
    intro ranges _
    obtain ⟨low, rfl, rfl, hvalid, hlow⟩ := endText_iff.mp hlow
    obtain ⟨high, rfl, rfl, hvalid', hhigh⟩ := endText_iff.mp hhigh
    rw [List.append_assoc, List.cons_append, List.append_assoc,
      bind_range hvalid hlow hvalid' hhigh, if_neg (Char.not_lt.mpr hle), ih _ (by simp),
      List.append_assoc]
    rfl

/-- An item that is one token is read in front of whatever is read behind it. -/
theorem bind_item {t : Token} {item : Item} (hvalid : t.Valid)
    (hread : ∀ ts, items? (t :: ts) = (items? ts).map (item :: ·)) (s : List Char) :
    (tokens? (t.text ++ s)).bind items? = ((tokens? s).bind items?).map (item :: ·) := by
  rw [bind_text hvalid, Option.map_bind]
  exact Option.bind_congr fun ts _ => hread ts

/-- The bracket of a class with what stands behind it. -/
theorem bind_class {s : List Char} (hcaret : s.head? ≠ some '^') :
    (tokens? ('[' :: s)).bind items? = (tokens? s).bind (setItems? false []) := by
  rw [bind_plain (by decide)]
  refine Option.bind_congr fun ts hts => ?_
  refine items?_class ?_
  rintro ts' rfl
  obtain ⟨r, rfl, _⟩ := tokens?_eq_cons_iff.mp hts
  exact hcaret rfl

/-- The bracket of a negated class with what stands behind its caret. -/
theorem bind_negatedClass (s : List Char) :
    (tokens? ('[' :: '^' :: s)).bind items? = (tokens? s).bind (setItems? true []) := by
  rw [bind_plain (by decide), bind_plain (by decide)]
  rfl

/-- The items that a text spells are read in front of whatever is read behind the text. -/
theorem bind_spells {s : List Char} {items : List Item} (h : Spells s items) (r : List Char) :
    (tokens? (s ++ r)).bind items? = ((tokens? r).bind items?).map (items ++ ·) := by
  have hcons : ∀ {item : Item} {items : List Item} {x : Option (List Item)},
      (x.map (items ++ ·)).map (item :: ·) = x.map (item :: items ++ ·) := by
    intro item items x
    rw [Option.map_map]
    rfl
  induction h with
  | nil => exact (Option.map_id' ..).symm
  | anyRun _ ih =>
    rw [← hcons, ← ih]
    exact bind_item (t := ⟨'*', false⟩) (.inr (by decide)) (fun _ => rfl) _
  | anyOne _ ih =>
    rw [← hcons, ← ih]
    exact bind_item (t := ⟨'?', false⟩) (.inr (by decide)) (fun _ => rfl) _
  | escaped c _ ih =>
    rw [← hcons, ← ih]
    exact bind_item (t := ⟨c, true⟩) (.inl rfl) (items?_exactly (.inl rfl)) _
  | @plain c s items hc _ ih =>
    have hslash : c ≠ '\\' := by
      rintro rfl
      exact hc (by decide)
    rw [← hcons, ← ih]
    exact bind_item (t := ⟨c, false⟩) (.inr hslash) (items?_exactly (.inr (not_mark hc))) _
  | @set t s ranges items htext hne hcaret _ ih =>
    rw [← hcons, ← ih, List.cons_append, List.append_assoc, List.cons_append,
      bind_class (head?_bracket (by decide) hcaret),
      bind_classText htext _ [] (by simpa using hne)]
    rfl
  | @negatedSet t s ranges items htext hne _ ih =>
    rw [← hcons, ← ih, List.cons_append, List.cons_append, List.append_assoc, List.cons_append,
      bind_negatedClass, bind_classText htext _ [] (by simpa using hne)]
    rfl

/-- A text spells the items that are read from it and no others. -/
theorem spells_iff {s : List Char} {items : List Item} :
    Spells s items ↔ (tokens? s).bind items? = some items := by
  constructor
  · intro h
    have hread := bind_spells h []
    rw [List.append_nil] at hread
    rw [hread]
    exact congrArg some (List.append_nil items)
  · intro h
    obtain ⟨ts, hts, hitems⟩ := Option.bind_eq_some_iff.mp h
    exact reading_sound.1 ts items s hitems hts

end Pushdown.Pattern
