import Mathlib.Data.List.Basic
import Mathlib.Order.Nat

/-!
# Bytes by address

A memory gives a byte for every address. `readBytes` reads a range and `storeBytes` writes one. A range
reads the bytes that were stored in it, and a store elsewhere leaves it alone.
-/

namespace Foundation

/-- A byte for every address. -/
abbrev Memory := ℕ → UInt8

namespace Memory

variable (m : Memory)

/-- The `n` bytes from address `a` on. -/
def readBytes (a n : ℕ) : List UInt8 := (List.range n).map fun i => m (a + i)

/-- The memory with `bytes` stored from address `a` on. -/
def storeBytes (a : ℕ) (bytes : List UInt8) : Memory := fun x =>
  if a ≤ x then (bytes[x - a]?).getD (m x) else m x

variable {m} {m' : Memory} {a n : ℕ} {bytes : List UInt8}

/-- A read is about the bytes of its range only. -/
theorem readBytes_congr (h : ∀ x, a ≤ x → x < a + n → m x = m' x) :
    m.readBytes a n = m'.readBytes a n := by
  refine List.map_congr_left fun i hi => h (a + i) (Nat.le_add_right a i) ?_
  exact Nat.add_lt_add_left (List.mem_range.mp hi) a

/-- A store leaves the bytes outside its range alone. -/
theorem storeBytes_apply_of_outside {x : ℕ} (h : x < a ∨ a + bytes.length ≤ x) :
    m.storeBytes a bytes x = m x := by
  unfold storeBytes
  split
  · rw [List.getElem?_eq_none (by omega)]
    rfl
  · rfl

/-- A range reads what was stored in it. -/
theorem readBytes_storeBytes (h : n ≤ bytes.length) :
    (m.storeBytes a bytes).readBytes a n = bytes.take n := by
  refine List.ext_getElem (by simp [readBytes, h]) fun i hi _ => ?_
  have hlt : i < bytes.length := by
    simp only [readBytes, List.length_map, List.length_range] at hi
    omega
  simp [readBytes, storeBytes, hlt]

/-- A range that a store does not reach reads as before. -/
theorem readBytes_storeBytes_of_disjoint {b : ℕ} (h : b + n ≤ a ∨ a + bytes.length ≤ b) :
    (m.storeBytes a bytes).readBytes b n = m.readBytes b n :=
  readBytes_congr fun _ hle hlt => storeBytes_apply_of_outside (by omega)

end Memory

end Foundation
