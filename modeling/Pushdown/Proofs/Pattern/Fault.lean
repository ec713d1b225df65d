import Pushdown.Proofs.Pattern.Expression

/-!
# Texts that are no pattern

A text that spells no items goes wrong somewhere: in front of the place stands a pattern, and behind
it a backslash with no character, a class without ranges or a class that goes wrong itself
(`Fault`). That every text is a pattern or has a fault is an induction over its length that follows
the grammar (`isPattern_or_faulty`). That no text is both comes from reading: a text is read behind
a pattern as on its own (`isPattern_append_iff`), so a fault is one wherever it stands. Main
statement: a text is refused just if it spells nothing, and these are the texts with a fault
(`read_eq_error_iff`).
-/

namespace Pushdown.Pattern

open Text.Backslash

/-! ## What goes wrong -/

/-- A text spells some items. -/
def IsPattern (s : List Char) : Prop :=
  ∃ items, Spells s items

/-- The caret of a negated class. -/
def caret (negated : Bool) : List Char :=
  if negated then ['^'] else []

/-- What can stand behind the bracket of a class and the caret that negates it: a caret directly
behind the bracket always does. -/
def Body (negated : Bool) (s : List Char) : Prop :=
  negated = false → s.head? ≠ some '^'

/-- Ranges of a class that are complete in front of what stands behind them: no dash follows a
character that stands alone. -/
inductive Ranges (behind : List Char) : List Char → Prop
  | nil : Ranges behind []
  | single {c : Char} {t s : List Char} :
      EndText c t → (s ++ behind).head? ≠ some '-' → Ranges behind s → Ranges behind (t ++ s)
  | range {low high : Char} {t u s : List Char} :
      EndText low t → EndText high u → low ≤ high → Ranges behind s →
        Ranges behind (t ++ '-' :: (u ++ s))

/-- A text that ends where a character is wanted: at once, or behind a backslash. -/
inductive Cut : List Char → Prop
  | nothing : Cut []
  | backslash : Cut ['\\']

/-- What cannot stand behind complete ranges of a class. -/
inductive ClassFault : List Char → Prop
  | unclosed {s : List Char} : Cut s → ClassFault s
  | halfRange {low : Char} {t s : List Char} : EndText low t → Cut s → ClassFault (t ++ '-' :: s)
  | closedRange {low : Char} {t : List Char} (s : List Char) :
      EndText low t → ClassFault (t ++ '-' :: ']' :: s)
  | reversed {low high : Char} {t u : List Char} (s : List Char) :
      EndText low t → EndText high u → high < low → ClassFault (t ++ '-' :: (u ++ s))

/-- What cannot stand behind complete items. -/
inductive Fault : List Char → Prop
  | backslash : Fault ['\\']
  | emptyClass (negated : Bool) (s : List Char) : Fault ('[' :: (caret negated ++ ']' :: s))
  | inClass {negated : Bool} {t s : List Char} :
      Body negated (t ++ s) → Ranges s t → ClassFault s →
        Fault ('[' :: (caret negated ++ (t ++ s)))

/-- A text goes wrong behind items that are complete. -/
def Faulty (s : List Char) : Prop :=
  ∃ front rest, s = front ++ rest ∧ IsPattern front ∧ Fault rest

theorem Fault.faulty {s : List Char} (h : Fault s) : Faulty s :=
  ⟨[], s, rfl, ⟨[], .nil⟩, h⟩

/-! ## A text is a pattern or faulty -/

/-- Inside a class stands the end of the text, the closing bracket or a character that can be an
end of a range. -/
theorem cut_or_end (s : List Char) :
    Cut s ∨ (∃ r, s = ']' :: r) ∨ ∃ c t r, s = t ++ r ∧ EndText c t ∧ r.length < s.length := by
  cases s with
  | nil => exact .inl .nothing
  | cons c r =>
    by_cases hslash : c = '\\'
    · subst hslash
      cases r with
      | nil => exact .inl .backslash
      | cons d r => exact .inr (.inr ⟨d, ['\\', d], r, rfl, .escaped d, by simp⟩)
    · by_cases hclose : c = ']'
      · subst hclose
        exact .inr (.inl ⟨r, rfl⟩)
      · exact .inr (.inr ⟨c, [c], r, rfl, .plain hslash hclose, by simp⟩)

/-- The ranges of a class go on to its bracket or to a fault. -/
theorem class_or_fault (s : List Char) :
    ∃ t r, s = t ++ r ∧ Ranges r t ∧ ((∃ r', r = ']' :: r') ∨ ClassFault r) := by
  induction hlength : s.length using Nat.strong_induction_on generalizing s with
  | _ n ih =>
    rcases cut_or_end s with hcut | ⟨r, rfl⟩ | ⟨low, t, r, rfl, hlow, hr⟩
    · exact ⟨[], s, rfl, .nil, .inr (.unclosed hcut)⟩
    · exact ⟨[], ']' :: r, rfl, .nil, .inl ⟨r, rfl⟩⟩
    · by_cases hdash : r.head? = some '-'
      · -- a range with two ends
        obtain ⟨r, rfl⟩ : ∃ r', r = '-' :: r' := List.head?_eq_some_iff.mp hdash
        rcases cut_or_end r with hcut | ⟨r, rfl⟩ | ⟨high, u, r, rfl, hhigh, _⟩
        · exact ⟨[], _, rfl, .nil, .inr (.halfRange hlow hcut)⟩
        · exact ⟨[], _, rfl, .nil, .inr (.closedRange r hlow)⟩
        · by_cases hlt : high < low
          · exact ⟨[], _, rfl, .nil, .inr (.reversed r hlow hhigh hlt)⟩
          · obtain ⟨v, r, rfl, hv, hend⟩ := ih r.length (by simp at hlength; omega) r rfl
            refine ⟨t ++ '-' :: (u ++ v), r, by simp, ?_, hend⟩
            exact .range hlow hhigh (Char.not_lt.mp hlt) hv
      · obtain ⟨v, r, rfl, hv, hend⟩ := ih r.length (by omega) r rfl
        exact ⟨t ++ v, r, (List.append_assoc ..).symm, .single hlow hdash hv, hend⟩

/-- Ranges up to the bracket are the text of a class. -/
theorem Ranges.classText {r t : List Char} (h : Ranges (']' :: r) t) :
    ∃ ranges, ClassText t ranges ∧ (t ≠ [] → ranges ≠ []) := by
  induction h with
  | nil => exact ⟨[], .nil, fun h => absurd rfl h⟩
  | @single c t s hend hdash _ ih =>
    obtain ⟨ranges, htext, _⟩ := ih
    refine ⟨.single c :: ranges, .single hend ?_ htext, fun _ => List.cons_ne_nil _ _⟩
    intro hhead
    rw [List.head?_append, hhead, Option.some_or] at hdash
    exact hdash rfl
  | @range low high t u s hlow hhigh hle _ ih =>
    obtain ⟨ranges, htext, _⟩ := ih
    exact ⟨.between low high :: ranges, .range hlow hhigh hle htext,
      fun _ => List.cons_ne_nil _ _⟩

/-- What can be put in front of every pattern can be put in front of every faulty text. -/
theorem isPattern_or_faulty_append {t s : List Char} (h : ∀ r, IsPattern r → IsPattern (t ++ r))
    (hs : IsPattern s ∨ Faulty s) : IsPattern (t ++ s) ∨ Faulty (t ++ s) := by
  rcases hs with hs | ⟨front, rest, rfl, hfront, hrest⟩
  · exact .inl (h s hs)
  · exact .inr ⟨t ++ front, rest, (List.append_assoc ..).symm, h front hfront, hrest⟩

/-- A character that opens nothing is an item of its own. -/
theorem isPattern_cons {c : Char} {s : List Char} (hclass : c ≠ '[') (hslash : c ≠ '\\')
    (hs : IsPattern s) : IsPattern (c :: s) := by
  obtain ⟨items, hitems⟩ := hs
  by_cases hstar : c = '*'
  · subst hstar
    exact ⟨_, .anyRun hitems⟩
  by_cases hquestion : c = '?'
  · subst hquestion
    exact ⟨_, .anyOne hitems⟩
  exact ⟨_, .plain (by simp [*]) hitems⟩

theorem isPattern_class {negated : Bool} {t s : List Char} {ranges : List Range}
    (hbody : Body negated t) (ht : ClassText t ranges) (hne : ranges ≠ []) (hs : IsPattern s) :
    IsPattern ('[' :: (caret negated ++ (t ++ ']' :: s))) := by
  obtain ⟨items, hitems⟩ := hs
  cases negated with
  | true => exact ⟨_, .negatedSet ht hne hitems⟩
  | false => exact ⟨_, .set ht hne (hbody rfl) hitems⟩

/-- A text behind the bracket of a class has a caret that negates the class or has none. -/
theorem exists_body (s : List Char) :
    ∃ negated body, s = caret negated ++ body ∧ Body negated body := by
  by_cases hcaret : s.head? = some '^'
  · obtain ⟨body, rfl⟩ := List.head?_eq_some_iff.mp hcaret
    exact ⟨true, body, rfl, fun h => absurd h (by decide)⟩
  · exact ⟨false, s, rfl, fun _ => hcaret⟩

/-- A class behind which a pattern or a fault comes, or a class that is a fault itself. -/
theorem isPattern_or_faulty_class {s : List Char}
    (ih : ∀ r, r.length < s.length → IsPattern r ∨ Faulty r) :
    IsPattern ('[' :: s) ∨ Faulty ('[' :: s) := by
  obtain ⟨negated, body, rfl, hbody⟩ := exists_body s
  obtain ⟨t, r, rfl, ht, ⟨r, rfl⟩ | hend⟩ := class_or_fault body
  · by_cases hne : t = []
    · subst hne
      exact .inr (Fault.emptyClass negated r).faulty
    · have hcaret : Body negated t := by
        intro hnegated hhead
        refine hbody hnegated ?_
        rw [List.head?_append, hhead, Option.some_or]
      obtain ⟨ranges, htext, hrangesNe⟩ := ht.classText
      have hclass := isPattern_or_faulty_append (t := '[' :: (caret negated ++ (t ++ [']'])))
        (fun s hs => by simpa using isPattern_class hcaret htext (hrangesNe hne) hs)
        (ih r (by simp only [List.length_append, List.length_cons]; omega))
      simpa using hclass
  · exact .inr (Fault.inClass hbody ht hend).faulty

theorem isPattern_or_faulty (s : List Char) : IsPattern s ∨ Faulty s := by
  induction hlength : s.length using Nat.strong_induction_on generalizing s with
  | _ n ih =>
    have hrest : ∀ r, r.length < s.length → IsPattern r ∨ Faulty r := fun r hr =>
      ih r.length (by omega) r rfl
    cases s with
    | nil => exact .inl ⟨[], .nil⟩
    | cons c r =>
      by_cases hclass : c = '['
      · subst hclass
        exact isPattern_or_faulty_class fun s hs => hrest s (by simp; omega)
      by_cases hslash : c = '\\'
      · subst hslash
        cases r with
        | nil => exact .inr Fault.backslash.faulty
        | cons d r =>
          refine isPattern_or_faulty_append (t := ['\\', d]) ?_ (hrest r (by simp))
          exact fun _ ⟨items, h⟩ => ⟨_, .escaped d h⟩
      exact isPattern_or_faulty_append (t := [c]) (fun _ => isPattern_cons hclass hslash)
        (hrest r (by simp))

/-! ## A faulty text is no pattern -/

theorem ClassFault.unread {s : List Char} (h : ClassFault s) (negated : Bool)
    (ranges : List Range) :
    (tokens? s).bind (setItems? negated ranges) = none := by
  have hcut : ∀ {s}, Cut s → ∀ low : Token, low ≠ ⟨']', false⟩ →
      ((tokens? s).bind fun ts => setItems? negated ranges (low :: ⟨'-', false⟩ :: ts)) = none := by
    rintro s hs low hlow
    cases hs with
    | nothing =>
      exact setItems?_halfRange hlow (.inl rfl)
    | backslash => rfl
  cases h with
  | unclosed hs =>
    cases hs with
    | nothing => rfl
    | backslash => rfl
  | halfRange hlow hs =>
    obtain ⟨low, rfl, rfl, hvalid, hlow⟩ := endText_iff.mp hlow
    rw [bind_text hvalid, bind_plain (by decide)]
    exact hcut hs low hlow
  | closedRange s hlow =>
    obtain ⟨low, rfl, rfl, hvalid, hlow⟩ := endText_iff.mp hlow
    rw [bind_text hvalid, bind_plain (by decide), bind_plain (by decide)]
    refine (Option.bind_congr fun ts _ => ?_).trans (Option.bind_fun_none _)
    exact setItems?_halfRange hlow (.inr ⟨ts, rfl⟩)
  | reversed s hlow hhigh hlt =>
    obtain ⟨low, rfl, rfl, hvalid, hlow⟩ := endText_iff.mp hlow
    obtain ⟨high, rfl, rfl, hvalid', hhigh⟩ := endText_iff.mp hhigh
    rw [bind_range hvalid hlow hvalid' hhigh, if_pos hlt]

/-- Behind complete ranges a class goes wrong as at its start. -/
theorem Ranges.unread {negated : Bool} {t s : List Char} (h : Ranges s t)
    (hs : ∀ ranges, (tokens? s).bind (setItems? negated ranges) = none) (ranges : List Range) :
    (tokens? (t ++ s)).bind (setItems? negated ranges) = none := by
  induction h generalizing ranges with
  | nil => exact hs ranges
  | single hend hdash _ ih =>
    obtain ⟨single, rfl, rfl, hvalid, hsingle⟩ := endText_iff.mp hend
    rw [List.append_assoc, bind_single hvalid hsingle hdash, ih]
  | range hlow hhigh hle _ ih =>
    obtain ⟨low, rfl, rfl, hvalid, hlow⟩ := endText_iff.mp hlow
    obtain ⟨high, rfl, rfl, hvalid', hhigh⟩ := endText_iff.mp hhigh
    rw [List.append_assoc, List.cons_append, List.append_assoc,
      bind_range hvalid hlow hvalid' hhigh, if_neg (Char.not_lt.mpr hle), ih]

/-- The body of a class is what is read behind its bracket and its caret. -/
theorem bind_body {negated : Bool} {s : List Char} (h : Body negated s) :
    (tokens? ('[' :: (caret negated ++ s))).bind items? =
      (tokens? s).bind (setItems? negated []) := by
  cases negated with
  | true => exact bind_negatedClass s
  | false => exact bind_class (h rfl)

theorem Fault.unread {s : List Char} (h : Fault s) : (tokens? s).bind items? = none := by
  cases h with
  | backslash => rfl
  | emptyClass negated s =>
    have hbody : Body negated (']' :: s) := fun _ => by simp
    rw [bind_body hbody, bind_plain (by decide)]
    exact Option.bind_fun_none _
  | inClass hbody ht hs =>
    rw [bind_body hbody]
    exact ht.unread (hs.unread _) []

/-- Behind a pattern a text is a pattern just if it is one on its own. -/
theorem isPattern_append_iff {front : List Char} (h : IsPattern front) {rest : List Char} :
    IsPattern (front ++ rest) ↔ IsPattern rest := by
  obtain ⟨items, hfront⟩ := h
  simp only [IsPattern, spells_iff, bind_spells hfront, Option.map_eq_some_iff]
  constructor
  · rintro ⟨_, more, hmore, _⟩
    exact ⟨more, hmore⟩
  · rintro ⟨more, hmore⟩
    exact ⟨_, more, hmore, rfl⟩

theorem Faulty.not_isPattern {s : List Char} (h : Faulty s) : ¬IsPattern s := by
  obtain ⟨front, rest, rfl, hfront, hrest⟩ := h
  rw [isPattern_append_iff hfront]
  rintro ⟨items, hitems⟩
  rw [spells_iff, hrest.unread] at hitems
  cases hitems

theorem not_isPattern_iff {s : List Char} : ¬IsPattern s ↔ Faulty s :=
  ⟨(isPattern_or_faulty s).resolve_left, Faulty.not_isPattern⟩

/-! ## Marks that stand for themselves -/

/-- A text with a mark that means only itself: a closing bracket outside a class, or in a class a
dash that comes first, an opening bracket or a caret that is not the one that negates the class. No
dash follows it. -/
inductive Lenient : List Char → Prop
  | closing {front rest : List Char} :
      IsPattern front → IsPattern rest → Lenient (front ++ ']' :: rest)
  | inClass {negated : Bool} {front t u rest : List Char} {c : Char} :
      IsPattern front → IsPattern rest → c ∈ ['-', '[', '^'] → (c = '-' → t = []) →
        Body negated (t ++ [c]) → Ranges (c :: (u ++ ']' :: rest)) t → u.head? ≠ some '-' →
          Ranges (']' :: rest) u →
            Lenient (front ++ '[' :: (caret negated ++ (t ++ c :: (u ++ ']' :: rest))))

theorem Ranges.append {t s behind : List Char} (ht : Ranges (s ++ behind) t)
    (hs : Ranges behind s) : Ranges behind (t ++ s) := by
  induction ht with
  | nil => exact hs
  | single hend hdash _ ih =>
    rw [List.append_assoc]
    exact .single hend (by rwa [List.append_assoc]) ih
  | range hlow hhigh hle _ ih =>
    rw [List.append_assoc, List.cons_append, List.append_assoc]
    exact .range hlow hhigh hle ih

theorem Lenient.isPattern {s : List Char} (h : Lenient s) : IsPattern s := by
  cases h with
  | closing hfront hrest =>
    exact (isPattern_append_iff hfront).mpr (isPattern_cons (by decide) (by decide) hrest)
  | @inClass negated front t u rest c hfront hrest hc _ hbody ht hdash hu =>
    have hend : EndText c [c] := by
      simp only [List.mem_cons, List.not_mem_nil, or_false] at hc
      rcases hc with rfl | rfl | rfl <;> exact .plain (by decide) (by decide)
    have hranges : Ranges (']' :: rest) (t ++ c :: u) :=
      ht.append (.single hend (head?_bracket (by decide) hdash) hu)
    have hcaret : Body negated (t ++ c :: u) := by
      intro hnegated
      cases t with
      | nil => exact hbody hnegated
      | cons d t => exact hbody hnegated
    obtain ⟨ranges, htext, hne⟩ := hranges.classText
    have hclass := isPattern_class hcaret htext (hne (by simp)) hrest
    rw [List.append_assoc, List.cons_append] at hclass
    exact (isPattern_append_iff hfront).mpr hclass

/-! ## What is refused -/

/-- A text is refused, with the text in the error, just if it spells no items, and these are the
texts with a fault. Whatever spells items is read, also if a mark in it means only itself. -/
theorem read_eq_error_iff (glob : String) :
    (Pattern.read glob = .error (.malformed glob) ↔ ¬IsPattern glob.toList) ∧
      ((∃ p, Pattern.read glob = .ok p) ↔ IsPattern glob.toList) ∧
      (¬IsPattern glob.toList ↔ Faulty glob.toList) ∧
      (Lenient glob.toList → IsPattern glob.toList) := by
  refine ⟨?_, exists_read_iff, not_isPattern_iff, Lenient.isPattern⟩
  rw [read_eq_malformed_iff, IsPattern, not_exists]

/-- A dash, a bracket and a caret that mean only themselves behind a bracket that closes no class,
and in the same place a range that ends in the closing bracket. -/
theorem refuses_closed_range :
    (Lenient "t]_[^-[^]".toList ∧ ∃ p, Pattern.read "t]_[^-[^]" = .ok p) ∧
      Faulty "t]_[^a-]".toList ∧ Pattern.read "t]_[^a-]" = .error (.malformed "t]_[^a-]") := by
  have hfront : IsPattern ['t', ']', '_'] :=
    ⟨_, .plain (by decide) (.plain (by decide) (.plain (by decide) .nil))⟩
  have hlenient : Lenient "t]_[^-[^]".toList := by
    refine @Lenient.inClass true _ [] ['[', '^'] _ _ hfront ⟨[], .nil⟩ (by decide)
      (fun _ => rfl) (fun h => absurd h (by decide)) .nil (by decide) ?_
    exact .single (.plain (by decide) (by decide)) (by decide)
      (.single (.plain (by decide) (by decide)) (by decide) .nil)
  have hfaulty : Faulty "t]_[^a-]".toList :=
    ⟨_, _, rfl, hfront, @Fault.inClass true [] _ (fun h => absurd h (by decide)) .nil
      (.closedRange [] (.plain (c := 'a') (by decide) (by decide)))⟩
  obtain ⟨_, haccepted, _, hlone⟩ := read_eq_error_iff "t]_[^-[^]"
  obtain ⟨hrefused, _, hfaults, _⟩ := read_eq_error_iff "t]_[^a-]"
  exact ⟨⟨hlenient, haccepted.mpr (hlone hlenient)⟩, hfaulty, hrefused.mpr (hfaults.mpr hfaulty)⟩

end Pushdown.Pattern
