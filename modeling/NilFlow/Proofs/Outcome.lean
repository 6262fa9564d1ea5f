import Mathlib.Tactic.Common

/-!
# Steps of a computation that may fail

A computation that fails stops at the first step that does.  So it succeeds if every step succeeds,
and it fails with the error of a step before which all others have succeeded.
-/

namespace NilFlow

section Steps

variable {ε α β : Type}

/-- A function is applied to an outcome that is there. -/
lemma map_eq_ok {f : α → β} {x : Except ε α} {b : β} :
    f <$> x = .ok b ↔ ∃ a, x = .ok a ∧ f a = b := by
  cases x <;> simp [Functor.map, Except.map]

/-- A second step follows a first one that succeeds. -/
lemma bind_eq_ok {x : Except ε α} {f : α → Except ε β} {b : β} :
    x >>= f = .ok b ↔ ∃ a, x = .ok a ∧ f a = .ok b := by
  cases x <;> simp [Bind.bind, Except.bind]

/-- Of two steps the first one fails, or it succeeds and the second one fails. -/
lemma bind_eq_error {x : Except ε α} {f : α → Except ε β} {e : ε} :
    x >>= f = .error e ↔ x = .error e ∨ ∃ a, x = .ok a ∧ f a = .error e := by
  cases x <;> simp [Bind.bind, Except.bind]

/-- A check that succeeds gives what it checks, with a proof. -/
lemma dite_eq_ok {p : Prop} [Decidable p] {f : p → α} {e : ε} {a : α} :
    (if h : p then Except.ok (f h) else .error e) = .ok a ↔ ∃ h : p, f h = a := by
  split <;> simp_all

end Steps

end NilFlow
