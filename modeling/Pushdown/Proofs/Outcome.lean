import Mathlib

/-!
# When a step succeeds

A computation that may fail is put together from steps that may fail. It gives a result exactly if
its steps do (`map_eq_ok_iff`, `mapError_eq_ok_iff`, `bind_eq_ok_iff`), so it fails with its first
step, and with the next one if that fails for whatever the first one gives (`Fails.bind`,
`fails_bind`).
-/

namespace Pushdown

variable {ε δ α β : Type}

theorem map_eq_ok_iff {x : Except ε α} {f : α → β} {b : β} :
    x.map f = .ok b ↔ ∃ a, x = .ok a ∧ f a = b := by
  cases x with
  | error e => simp [Except.map]
  | ok a => simp [Except.map]

theorem mapError_eq_ok_iff {x : Except ε α} {f : ε → δ} {a : α} :
    x.mapError f = .ok a ↔ x = .ok a := by
  cases x with
  | error e => simp [Except.mapError]
  | ok a => simp [Except.mapError]

theorem bind_eq_ok_iff {x : Except ε α} {f : α → Except ε β} {b : β} :
    x.bind f = .ok b ↔ ∃ a, x = .ok a ∧ f a = .ok b := by
  cases x with
  | error e => simp [Except.bind]
  | ok a => simp [Except.bind]

/-- A computation that gives no result. -/
def Fails (x : Except ε α) : Prop :=
  ∀ a, x ≠ .ok a

theorem fails_error (e : ε) : Fails (.error e : Except ε α) := by
  intro a h
  cases h

theorem Fails.bind {x : Except ε α} (h : Fails x) (f : α → Except ε β) : Fails (x.bind f) := by
  intro b hb
  obtain ⟨a, ha, _⟩ := bind_eq_ok_iff.mp hb
  exact h a ha

theorem fails_bind {x : Except ε α} {f : α → Except ε β} (h : ∀ a, x = .ok a → Fails (f a)) :
    Fails (x.bind f) := by
  intro b hb
  obtain ⟨a, ha, hf⟩ := bind_eq_ok_iff.mp hb
  exact h a ha b hf

end Pushdown
