import Mathlib.Order.Defs.Unbundled

/-!
# Computations on a state that can fail

A failed computation keeps the state it failed in, so that what it did before is not lost. `exec` runs a
computation, and the rules say what it does to a sequence.

`Keeps R` says that a computation, completed or failed, relates the state before it to the state behind
it. For a preorder this goes through sequences, so a frame condition is proved once for each primitive.
-/

namespace Foundation

universe u

variable {σ ε α β : Type u}

/-- A computation on a state `σ` that may fail with an `ε`. -/
abbrev Exec (σ ε α : Type u) := ExceptT ε (StateM σ) α

/-- The answer of a computation, and the state it leaves. -/
def exec (x : Exec σ ε α) (s : σ) : Except ε α × σ := (ExceptT.run x).run s

/-- Returning leaves the state alone. -/
@[simp] theorem exec_pure (a : α) (s : σ) : exec (pure a : Exec σ ε α) s = (.ok a, s) := rfl

/-- Reading the state. -/
@[simp] theorem exec_get (s : σ) : exec (get : Exec σ ε σ) s = (.ok s, s) := rfl

/-- Changing the state. -/
@[simp] theorem exec_modify (f : σ → σ) (s : σ) :
    exec (modify f : Exec σ ε PUnit) s = (.ok ⟨⟩, f s) := rfl

/-- Failing. -/
@[simp] theorem exec_throw (e : ε) (s : σ) : exec (throw e : Exec σ ε α) s = (.error e, s) := rfl

/-- A sequence runs its second part where the first has completed. -/
theorem exec_bind (x : Exec σ ε α) (f : α → Exec σ ε β) (s : σ) :
    exec (x >>= f) s =
      match exec x s with
      | (.ok a, s') => exec (f a) s'
      | (.error e, s') => (.error e, s') := by
  show ExceptT.bindCont f (exec x s).1 (exec x s).2 = _
  obtain ⟨answer, s'⟩ := exec x s
  cases answer <;> rfl

/-- A sequence behind a completed first part. -/
theorem exec_bind_ok {x : Exec σ ε α} {s s' : σ} {a : α} (h : exec x s = (.ok a, s'))
    (f : α → Exec σ ε β) : exec (x >>= f) s = exec (f a) s' := by
  rw [exec_bind, h]

/-- A sequence behind a failed first part. -/
theorem exec_bind_error {x : Exec σ ε α} {s s' : σ} {e : ε} (h : exec x s = (.error e, s'))
    (f : α → Exec σ ε β) : exec (x >>= f) s = (.error e, s') := by
  rw [exec_bind, h]

/-- The computation takes every state to a related one. -/
def Keeps (R : σ → σ → Prop) (x : Exec σ ε α) : Prop := ∀ s, R s (exec x s).2

namespace Keeps

variable {R : σ → σ → Prop}

/-- Returning keeps a reflexive relation. -/
theorem pure [Std.Refl R] (a : α) : Keeps R (pure a : Exec σ ε α) := fun s => Std.Refl.refl s

/-- Failing keeps a reflexive relation. -/
theorem throw [Std.Refl R] (e : ε) : Keeps R (throw e : Exec σ ε α) := fun s => Std.Refl.refl s

/-- A change keeps what each of its changes keeps. -/
theorem modify {f : σ → σ} (h : ∀ s, R s (f s)) : Keeps R (modify f : Exec σ ε PUnit) := h

/-- A sequence keeps what its parts keep. -/
theorem bind [IsTrans σ R] {x : Exec σ ε α} {f : α → Exec σ ε β} (hx : Keeps R x)
    (hf : ∀ a, Keeps R (f a)) : Keeps R (x >>= f) := by
  intro s
  have hfirst := hx s
  rw [exec_bind]
  revert hfirst
  obtain ⟨answer, s'⟩ := exec x s
  intro hfirst
  cases answer with
  | ok a => exact IsTrans.trans s s' _ hfirst (hf a s')
  | error e => exact hfirst

/-- What is done with the state that was read keeps what it keeps of that state. -/
theorem get_bind {f : σ → Exec σ ε β} (hf : ∀ s, R s (exec (f s) s).2) :
    Keeps R (get >>= f) := by
  intro s
  rw [exec_bind_ok (exec_get s)]
  exact hf s

end Keeps

end Foundation
