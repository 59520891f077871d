import Mathlib.Algebra.Group.Nat.Defs
import Mathlib.Data.List.Basic
import Mathlib.Order.Nat

/-!
# Decimal numerals

What a formatting call writes for a non-negative integer. A numeral determines its number, and it has no
more digits than a bound on the number allows.
-/

namespace Foundation

/-- The decimal numeral of a number. -/
def decimal (n : ℕ) : List Char := Nat.toDigits 10 n

/-- A numeral determines its number. -/
theorem decimal_injective : Function.Injective decimal := by
  intro m n h
  have hvalue := congrArg (fun digits => Nat.ofDigitChars 10 digits 0) h
  simpa only [decimal, Nat.ofDigitChars_ten_toDigits] using hvalue

/-- A number below `10 ^ k` has `k` digits at most. -/
theorem decimal_length_le {n k : ℕ} (hk : 0 < k) (h : n < 10 ^ k) : (decimal n).length ≤ k :=
  (Nat.length_toDigits_le_iff (by decide) hk).mpr h

/-- A numeral ends in front of the first character that is no digit. -/
theorem decimal_append_inj {m n : ℕ} {c : Char} (hc : c.isDigit = false) {r r' : List Char}
    (h : decimal m ++ c :: r = decimal n ++ c :: r') : m = n ∧ r = r' := by
  have hdigits (k : ℕ) : ∀ d ∈ decimal k, d.isDigit = true := fun d hd =>
    Nat.isDigit_of_mem_toDigits (by decide) (by decide) hd
  have hfront (k : ℕ) (rest : List Char) :
      (decimal k ++ c :: rest).takeWhile Char.isDigit = decimal k := by
    rw [List.takeWhile_append_of_pos (hdigits k), List.takeWhile_cons_of_neg (by simp [hc]),
      List.append_nil]
  have hsame : decimal m = decimal n := by rw [← hfront m r, h, hfront n r']
  rw [hsame] at h
  exact ⟨decimal_injective hsame, (List.cons.inj (List.append_cancel_left h)).2⟩

end Foundation
