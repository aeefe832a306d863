/-!
# Computations that may fail

When a computation succeeds, and which errors it may fail with, goes by its steps.
-/

namespace ComponentKinds

variable {ε α β : Type}

/-- A result is mapped to a value exactly if it is a value that is mapped to that. -/
theorem map_eq_ok_iff {x : Except ε α} {f : α → β} {y : β} :
    x.map f = .ok y ↔ ∃ a, x = .ok a ∧ f a = y := by
  cases x <;> simp [Except.map]

/-- Mapping a result leaves its error. -/
theorem map_eq_error_iff {x : Except ε α} {f : α → β} {e : ε} :
    x.map f = .error e ↔ x = .error e := by
  cases x <;> simp [Except.map]

/-- A computation in two steps succeeds exactly if both steps do. -/
theorem bind_eq_ok_iff {x : Except ε α} {f : α → Except ε β} {y : β} :
    (x >>= f) = .ok y ↔ ∃ a, x = .ok a ∧ f a = .ok y := by
  cases x with
  | error e => exact ⟨nofun, nofun⟩
  | ok a =>
    constructor
    · exact fun h => ⟨a, rfl, h⟩
    · rintro ⟨_, ⟨⟩, h⟩
      exact h

/-- A computation that fails with errors of one sort only. -/
def FailsBy (P : ε → Prop) (x : Except ε α) : Prop := ∀ e, x = .error e → P e

namespace FailsBy

variable {P : ε → Prop}

theorem ok (x : α) : FailsBy P (.ok x) := nofun

theorem error {e : ε} (h : P e) : FailsBy P (.error e : Except ε α) := by
  rintro _ ⟨⟩
  exact h

theorem bind {x : Except ε α} {f : α → Except ε β} (hx : FailsBy P x)
    (hf : ∀ y, FailsBy P (f y)) : FailsBy P (x >>= f) := by
  intro e he
  cases hresult : x with
  | ok y =>
    rw [hresult] at he
    exact hf y e he
  | error e' =>
    rw [hresult] at he
    cases he
    exact hx e hresult

end FailsBy

end ComponentKinds
