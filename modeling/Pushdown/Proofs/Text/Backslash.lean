import Mathlib
import Pushdown.Text.Backslash

/-!
# Tokens in characters

A backslash only ever stands behind a backslash, so the tokens of a text are determined by it and
determine it. Main statement: `tokens?_eq_cons_iff` says what one token is in characters. A text
that takes no token from what follows it (`Cuts`) is cut into its tokens in front of anything, so
texts are put together with their tokens (`Cuts.append`, `cuts_flatMap`).
-/

namespace Pushdown.Text.Backslash

/-- The text of a token. -/
def Token.text (t : Token) : List Char :=
  if t.escaped then ['\\', t.char] else [t.char]

/-- A token of some text: a backslash only ever stands behind a backslash. -/
def Token.Valid (t : Token) : Prop :=
  t.escaped = true ∨ t.char ≠ '\\'

theorem tokens?_text {t : Token} (h : t.Valid) (s : List Char) :
    tokens? (t.text ++ s) = (tokens? s).map (t :: ·) := by
  obtain ⟨c, escaped⟩ := t
  cases escaped with
  | true => rfl
  | false =>
    have hc : c ≠ '\\' := h.resolve_left Bool.false_ne_true
    show tokens? (c :: s) = _
    rw [tokens?]
    · exact fun hc' _ => hc hc'
    · exact fun _ _ hc' _ => hc hc'

/-- The first token of a text and what is left for the others. -/
theorem tokens?_eq_cons_iff {s : List Char} {t : Token} {ts : List Token} :
    tokens? s = some (t :: ts) ↔ ∃ r, s = t.text ++ r ∧ t.Valid ∧ tokens? r = some ts := by
  constructor
  · intro h
    fun_cases tokens? s with
    | case1 => cases h
    | case2 => cases h
    | case3 c rest =>
      obtain ⟨ts', hts, heq⟩ := Option.map_eq_some_iff.mp h
      cases heq
      exact ⟨rest, rfl, .inl rfl, hts⟩
    | case4 c rest hend hmore =>
      rw [tokens?] at h
      · obtain ⟨ts', hts, heq⟩ := Option.map_eq_some_iff.mp h
        cases heq
        refine ⟨rest, rfl, .inr ?_, hts⟩
        rintro rfl
        cases rest with
        | nil => exact hend rfl rfl
        | cons d rest => exact hmore d rest rfl rfl
      · exact hend
      · exact hmore
  · rintro ⟨r, rfl, hvalid, hr⟩
    rw [tokens?_text hvalid, hr, Option.map_some]

theorem tokens?_eq_nil_iff {s : List Char} : tokens? s = some [] ↔ s = [] := by
  constructor
  · intro h
    fun_cases tokens? s with
    | case1 => rfl
    | case2 => cases h
    | case3 c rest =>
      obtain ⟨ts, _, heq⟩ := Option.map_eq_some_iff.mp h
      cases heq
    | case4 c rest hend hmore =>
      rw [tokens?] at h
      · obtain ⟨ts, _, heq⟩ := Option.map_eq_some_iff.mp h
        cases heq
      · exact hend
      · exact hmore
  · rintro rfl
    rfl

/-- A plain character at the front of a text is its first token. -/
theorem tokens?_plain {c : Char} {s : List Char} {ts : List Token} (hc : c ≠ '\\')
    (h : tokens? (c :: s) = some ts) : ∃ rest, ts = ⟨c, false⟩ :: rest := by
  have htext : tokens? (c :: s) = (tokens? s).map (⟨c, false⟩ :: ·) :=
    tokens?_text (t := ⟨c, false⟩) (.inr hc) s
  rw [htext] at h
  obtain ⟨rest, _, rfl⟩ := Option.map_eq_some_iff.mp h
  exact ⟨rest, rfl⟩

/-- Reading a text from its first token on. -/
theorem bind_text {α : Type} {t : Token} (h : t.Valid) (s : List Char)
    (f : List Token → Option α) :
    (tokens? (t.text ++ s)).bind f = (tokens? s).bind fun ts => f (t :: ts) := by
  rw [tokens?_text h, Option.bind_map]
  rfl

theorem bind_plain {α : Type} {c : Char} (h : c ≠ '\\') (s : List Char)
    (f : List Token → Option α) :
    (tokens? (c :: s)).bind f = (tokens? s).bind fun ts => f (⟨c, false⟩ :: ts) :=
  bind_text (t := ⟨c, false⟩) (.inr h) s f

/-! ## Texts in front of others -/

/-- A text is cut into tokens in front of any other text. -/
def Cuts (s : List Char) (ts : List Token) : Prop :=
  ∀ r, tokens? (s ++ r) = (tokens? r).map (ts ++ ·)

/-- The tokens of characters that all stand plain. -/
def plain (s : List Char) : List Token :=
  s.map (⟨·, false⟩)

theorem cuts_nil : Cuts [] [] := fun _ => Option.map_id'.symm

theorem cuts_text {t : Token} (h : t.Valid) : Cuts t.text [t] :=
  tokens?_text h

/-- A character behind a backslash, if it is one of some marks, the backslash among them. -/
theorem cuts_marked {marks : List Char} (h : '\\' ∈ marks) (c : Char) :
    Cuts (if c ∈ marks then ['\\', c] else [c]) [⟨c, c ∈ marks⟩] := by
  by_cases hc : c ∈ marks
  · simp only [hc, if_true, decide_true]
    exact cuts_text (t := ⟨c, true⟩) (.inl rfl)
  · have hne : c ≠ '\\' := fun hslash => hc (hslash ▸ h)
    simp only [hc, if_false, decide_false]
    exact cuts_text (t := ⟨c, false⟩) (.inr hne)

theorem Cuts.append {s u : List Char} {ts us : List Token} (hs : Cuts s ts) (hu : Cuts u us) :
    Cuts (s ++ u) (ts ++ us) := by
  intro r
  rw [List.append_assoc, hs, hu, Option.map_map]
  exact Option.map_congr fun more _ => (List.append_assoc ts us more).symm

theorem cuts_flatMap {α : Type} {f : α → List Char} {g : α → List Token}
    (h : ∀ x, Cuts (f x) (g x)) (xs : List α) : Cuts (xs.flatMap f) (xs.flatMap g) := by
  induction xs with
  | nil => exact cuts_nil
  | cons x xs ih => exact (h x).append ih

theorem cuts_plain {s : List Char} (h : '\\' ∉ s) : Cuts s (plain s) := by
  induction s with
  | nil => exact cuts_nil
  | cons c s ih =>
    have hc : c ≠ '\\' := fun hc => h (List.mem_cons.mpr (.inl hc.symm))
    have hs : '\\' ∉ s := fun hs => h (List.mem_cons_of_mem c hs)
    exact (cuts_text (t := ⟨c, false⟩) (.inr hc)).append (ih hs)

theorem Cuts.tokens? {s : List Char} {ts : List Token} (h : Cuts s ts) : tokens? s = some ts := by
  have hs := h []
  rw [List.append_nil] at hs
  rw [hs]
  exact congrArg some (List.append_nil ts)

end Pushdown.Text.Backslash
