import Mathlib.Data.Nat.Notation

/-!
# Sets of flags in a word

A word used as a set of flags: setting some bits, clearing some bits, and asking whether any of
some bits is set. Disjoint groups of flags do not disturb each other.
-/

namespace Foundation

variable {w : ℕ}

/-- Is any of the given bits set? -/
def hasAny (m bits : BitVec w) : Bool := m &&& bits != 0#w

/-- No flag of the empty set is set. -/
@[simp] theorem hasAny_zero (bits : BitVec w) : hasAny 0#w bits = false := by
  simp [hasAny]

/-- A word with one of the bits set is not the empty set. -/
theorem ne_zero_of_hasAny {m bits : BitVec w} (h : hasAny m bits = true) : m ≠ 0#w := by
  rintro rfl
  simp at h

/-- Bits that were just set are set. -/
theorem hasAny_or_self (m : BitVec w) {bits : BitVec w} (h : bits ≠ 0#w) :
    hasAny (m ||| bits) bits = true := by
  have hand : (m ||| bits) &&& bits = bits := by
    ext i
    simpa using Or.inr
  rw [hasAny, hand]
  simpa using h

/-- Setting bits leaves a disjoint group alone. -/
theorem hasAny_or_of_disjoint (m : BitVec w) {bits other : BitVec w} (h : bits &&& other = 0#w) :
    hasAny (m ||| bits) other = hasAny m other := by
  have hand : (m ||| bits) &&& other = m &&& other := by
    have hdistrib : (m ||| bits) &&& other = (m &&& other) ||| (bits &&& other) := by
      ext i
      simp [Bool.and_or_distrib_right]
    rw [hdistrib, h, BitVec.or_zero]
  rw [hasAny, hand, hasAny]

/-- Bits that were just cleared are not set. -/
theorem hasAny_clear_self (m bits : BitVec w) : hasAny (m &&& ~~~bits) bits = false := by
  have hand : (m &&& ~~~bits) &&& bits = 0#w := by
    ext i
    simp
  rw [hasAny, hand]
  simp

/-- Clearing bits leaves a disjoint group alone. -/
theorem hasAny_clear_of_disjoint (m : BitVec w) {bits other : BitVec w}
    (h : bits &&& other = 0#w) : hasAny (m &&& ~~~bits) other = hasAny m other := by
  have hand : (m &&& ~~~bits) &&& other = m &&& other := by
    ext i hi
    have hbit : (bits &&& other)[i] = (0#w)[i] := by rw [h]
    simp only [BitVec.getElem_and, BitVec.getElem_zero, BitVec.getElem_not] at hbit ⊢
    cases hb : bits[i] <;> simp_all
  rw [hasAny, hand, hasAny]

end Foundation
