import Mathlib.Algebra.Group.Int.Defs
import Mathlib.Algebra.Group.Nat.Defs

/-!
# Machine words

Sums and differences of `w`-bit unsigned words, kept as natural numbers, and sums of signed ones, kept as
integers. Each operation agrees with the one on numbers as long as the true result is in range.
-/

namespace Foundation

/-- The sum of two `w`-bit words. -/
def wordAdd (w a b : ℕ) : ℕ := (a + b) % 2 ^ w

/-- The difference of two `w`-bit words, which wraps below zero. -/
def wordSub (w a b : ℕ) : ℕ := (a + (2 ^ w - b)) % 2 ^ w

/-- A sum in range does not wrap. -/
theorem wordAdd_eq {w a b : ℕ} (h : a + b < 2 ^ w) : wordAdd w a b = a + b :=
  Nat.mod_eq_of_lt h

/-- A sum out of range loses exactly the range. -/
theorem wordAdd_wrap {w a b : ℕ} (ha : a < 2 ^ w) (hb : b < 2 ^ w) (h : 2 ^ w ≤ a + b) :
    wordAdd w a b = a + b - 2 ^ w := by
  rw [wordAdd, Nat.mod_eq_sub_mod h, Nat.mod_eq_of_lt (by omega)]

/-- A difference of a word and a smaller one does not wrap. -/
theorem wordSub_eq {w a b : ℕ} (hb : b ≤ a) (ha : a < 2 ^ w) : wordSub w a b = a - b := by
  have hsum : a + (2 ^ w - b) = (a - b) + 2 ^ w := by omega
  rw [wordSub, hsum, Nat.add_mod_right, Nat.mod_eq_of_lt (by omega)]

/-- The number is a `w`-bit signed word. -/
def IsSigned (w : ℕ) (a : ℤ) : Prop := -2 ^ (w - 1) ≤ a ∧ a < 2 ^ (w - 1)

instance (w : ℕ) (a : ℤ) : Decidable (IsSigned w a) :=
  inferInstanceAs (Decidable (-2 ^ (w - 1) ≤ a ∧ a < 2 ^ (w - 1)))

/-- The sum of two `w`-bit signed words in two's complement. -/
def signedAdd (w : ℕ) (a b : ℤ) : ℤ := (a + b).bmod (2 ^ w)

/-- A signed sum in range does not wrap. -/
theorem signedAdd_eq {w : ℕ} {a b : ℤ} (hw : 0 < w) (h : IsSigned w (a + b)) :
    signedAdd w a b = a + b := by
  obtain ⟨hlow, hhigh⟩ := h
  have hdouble : ((2 ^ w : ℕ) : ℤ) = 2 ^ (w - 1) * 2 := by
    rw [Int.natCast_pow, ← Int.pow_succ, Nat.succ_eq_add_one, Nat.sub_add_cancel hw]
    rfl
  apply Int.bmod_eq_of_le_mul_two <;> omega

end Foundation
