import Mathlib.Logic.Basic

/-!
# Computations that can fail

Taking apart a sequence of `Except` computations, so that a proof about a completed call names
the result of each part and unfolds none of them.
-/

namespace Foundation

universe u v

variable {ε : Type u} {α β : Type v}

/-- Sequencing after a completed computation continues with its result. -/
@[simp] theorem ok_bind (a : α) (f : α → Except ε β) : (Except.ok a >>= f) = f a := rfl

/-- Sequencing after a failure is the failure. -/
@[simp] theorem error_bind (e : ε) (f : α → Except ε β) : (Except.error e >>= f) = .error e := rfl

/-- `return` completes. -/
@[simp] theorem pure_eq_ok (a : α) : (pure a : Except ε α) = .ok a := rfl

/-- A completed sequence completed both of its parts. -/
theorem bind_eq_ok {x : Except ε α} {f : α → Except ε β} {b : β} :
    (x >>= f) = .ok b ↔ ∃ a, x = .ok a ∧ f a = .ok b := by
  cases x <;> simp

/-- A completed computation, as an optional value. -/
theorem toOption_eq_some {x : Except ε α} {a : α} : x.toOption = some a ↔ x = .ok a := by
  cases x <;> simp [Except.toOption]

end Foundation
