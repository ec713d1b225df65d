import Mathlib
import Pushdown.Text.Blank

/-!
# Where a run of characters ends

A reader that takes characters of a kind gives back a text that does not go on with one
(`Stops`). What stands in front of such a text is taken exactly (`takeWhile_append_stops`,
`dropWhile_append_stops`), and a text without white space at its ends is left alone by trimming
(`trim_eq_self`). White space around such a text is what trimming takes off (`Spaced.trim`), and a
text of nothing else is all that trimming takes off a trimmed text (`eq_nil_of_trim`).
-/

namespace Pushdown.Text

/-- A text that does not go on with a character of a kind. -/
def Stops (p : Char → Bool) (s : List Char) : Prop :=
  ∀ c, s.head? = some c → p c = false

theorem stops_nil (p : Char → Bool) : Stops p [] := by
  intro c h
  cases h

theorem stops_cons {p : Char → Bool} {c : Char} (s : List Char) (h : p c = false) :
    Stops p (c :: s) := by
  intro d hd
  cases hd
  exact h

/-- A text stops where its front stops, if it has a front. -/
theorem stops_append {p : Char → Bool} {s : List Char} (rest : List Char) (hne : s ≠ [])
    (h : Stops p s) : Stops p (s ++ rest) := by
  cases s with
  | nil => exact absurd rfl hne
  | cons c s => exact stops_cons (s ++ rest) (h c rfl)

/-- A text stops where a run of characters of the kind has been dropped. -/
theorem stops_dropWhile (p : Char → Bool) (s : List Char) : Stops p (s.dropWhile p) := by
  intro c hc
  have hnot := List.head?_dropWhile_not p s
  rw [hc] at hnot
  exact hnot

theorem takeWhile_stops {p : Char → Bool} {s : List Char} (h : Stops p s) :
    s.takeWhile p = [] := by
  cases s with
  | nil => rfl
  | cons c s => rw [List.takeWhile_cons_of_neg (by simp [h c rfl])]

theorem dropWhile_stops {p : Char → Bool} {s : List Char} (h : Stops p s) :
    s.dropWhile p = s := by
  cases s with
  | nil => rfl
  | cons c s => rw [List.dropWhile_cons_of_neg (by simp [h c rfl])]

/-- A run of characters of a kind is taken up to where the text stops. -/
theorem takeWhile_append_stops {p : Char → Bool} {run rest : List Char}
    (hrun : ∀ c ∈ run, p c = true) (hrest : Stops p rest) :
    (run ++ rest).takeWhile p = run := by
  rw [List.takeWhile_append_of_pos hrun, takeWhile_stops hrest, List.append_nil]

/-- Behind a run of characters of a kind stands where the text stops. -/
theorem dropWhile_append_stops {p : Char → Bool} {run rest : List Char}
    (hrun : ∀ c ∈ run, p c = true) (hrest : Stops p rest) :
    (run ++ rest).dropWhile p = rest := by
  rw [List.dropWhile_append_of_pos hrun, dropWhile_stops hrest]

/-- Trimming leaves a text alone that has no white space at either end. -/
theorem trim_eq_self {s : List Char} (hfirst : Stops isBlank s) (hlast : Stops isBlank s.reverse) :
    trim s = s := by
  rw [trim, trimStart, dropWhile_stops hfirst, trimEnd, dropWhile_stops hlast, List.reverse_reverse]

theorem trim_cons_of_blank {c : Char} (s : List Char) (h : isBlank c = true) :
    trim (c :: s) = trim s := by
  rw [trim, trimStart, List.dropWhile_cons_of_pos h]
  rfl

theorem stops_reverse_trim (s : List Char) : Stops isBlank (trim s).reverse := by
  rw [trim, trimEnd, List.reverse_reverse]
  exact stops_dropWhile _ _

/-! ## White space around a text -/

/-- A text with white space, or nothing, on either side of another one. -/
inductive Spaced : List Char → List Char → Prop
  | around {before s after : List Char} : (∀ c ∈ before, isBlank c = true) →
      (∀ c ∈ after, isBlank c = true) → Spaced (before ++ (s ++ after)) s

/-- A text has nothing on either side of itself. -/
theorem spaced_self (s : List Char) : Spaced s s := by
  have hspaced : Spaced ([] ++ (s ++ [])) s :=
    .around (List.forall_mem_nil _) (List.forall_mem_nil _)
  rwa [List.nil_append, List.append_nil] at hspaced

/-- Trimming takes white space off, and nothing else. -/
theorem spaced_trim (s : List Char) : Spaced s (trim s) := by
  have hstart : s.takeWhile isBlank ++ trimStart s = s := List.takeWhile_append_dropWhile
  have hend : trim s ++ ((trimStart s).reverse.takeWhile isBlank).reverse = trimStart s := by
    rw [trim, trimEnd, ← List.reverse_append, List.takeWhile_append_dropWhile,
      List.reverse_reverse]
  have hspaced : Spaced (s.takeWhile isBlank ++
      (trim s ++ ((trimStart s).reverse.takeWhile isBlank).reverse)) (trim s) := by
    refine .around (fun c hc => List.mem_takeWhile_imp hc) fun c hc => ?_
    exact List.mem_takeWhile_imp (List.mem_reverse.mp hc)
  rw [hend, hstart] at hspaced
  exact hspaced

/-- White space is taken off up to a text that has none at its ends. -/
theorem Spaced.trim {t s : List Char} (h : Spaced t s) (hne : s ≠ []) (hfirst : Stops isBlank s)
    (hlast : Stops isBlank s.reverse) : trim t = s := by
  obtain ⟨hbefore, hafter⟩ := h
  rename_i before after
  have hstart : trimStart (before ++ (s ++ after)) = s ++ after :=
    dropWhile_append_stops hbefore (stops_append after hne hfirst)
  have hend : (s ++ after).reverse.dropWhile isBlank = s.reverse := by
    rw [List.reverse_append]
    exact dropWhile_append_stops (fun c hc => hafter c (List.mem_reverse.mp hc)) hlast
  rw [Text.trim, hstart, trimEnd, hend, List.reverse_reverse]

/-- What is trimmed away altogether is white space. -/
theorem isBlank_of_trim_eq_nil {s : List Char} (h : trim s = []) : ∀ c ∈ s, isBlank c = true := by
  have hspaced := spaced_trim s
  rw [h] at hspaced
  obtain ⟨hbefore, hafter⟩ := hspaced
  intro c hc
  rcases List.mem_append.mp hc with hc | hc
  · exact hbefore c hc
  · exact hafter c hc

/-- At the end of a text that ends in no white space, nothing is trimmed away altogether. -/
theorem eq_nil_of_trim {s rest : List Char} (hlast : Stops isBlank (s ++ rest).reverse)
    (h : trim rest = []) : rest = [] := by
  cases hrest : rest.reverse with
  | nil => exact List.reverse_eq_nil_iff.mp hrest
  | cons c before =>
    have hmem : c ∈ rest := List.mem_reverse.mp (hrest ▸ List.mem_cons_self)
    rw [List.reverse_append, hrest] at hlast
    exact absurd (isBlank_of_trim_eq_nil h c hmem) (by simp [hlast c rfl])

end Pushdown.Text
