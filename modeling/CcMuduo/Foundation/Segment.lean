import Mathlib.Data.List.Basic

/-!
# Segments of an array

An array is a list of its cells. `segment l i j` reads the half-open range from `i` to `j`,
`overwrite l pos data` stores `data` from position `pos` on. The lemmas say what a segment reads
after a store, in the three relative positions that a queue kept in an array needs.
-/

namespace Foundation

variable {β : Type*}

/-- The cells from position `i` up to, and not including, position `j`. -/
def segment (l : List β) (i j : ℕ) : List β := (l.take j).drop i

/-- The array with `data` stored from position `pos` on. -/
def overwrite (l : List β) (pos : ℕ) (data : List β) : List β :=
  l.take pos ++ data ++ l.drop (pos + data.length)

/-- A segment inside the array has as many cells as its bounds say. -/
theorem segment_length {l : List β} {i j : ℕ} (hj : j ≤ l.length) :
    (segment l i j).length = j - i := by
  simp [segment, hj]

/-- An empty range reads nothing. -/
@[simp] theorem segment_self (l : List β) (i : ℕ) : segment l i i = [] := by
  simp [segment]

/-- Dropping from a segment moves its lower bound. -/
theorem drop_segment (l : List β) (i j n : ℕ) :
    (segment l i j).drop n = segment l (i + n) j := by
  simp [segment, List.drop_drop]

/-- Taking from a segment moves its upper bound. -/
theorem take_segment {l : List β} {i j n : ℕ} (h : i + n ≤ j) :
    (segment l i j).take n = segment l i (i + n) := by
  rw [segment, segment, List.take_drop, List.take_take, Nat.min_eq_left h]

/-- Adjacent segments join. -/
theorem segment_append {l : List β} {i j k : ℕ} (hij : i ≤ j) (hjk : j ≤ k) :
    segment l i j ++ segment l j k = segment l i k := by
  have hsplit : l.take k = l.take j ++ (l.take k).drop j := by
    conv_lhs => rw [← List.take_append_drop j (l.take k)]
    rw [List.take_take, Nat.min_eq_left hjk]
  by_cases hlen : j ≤ l.length
  · have hi : i ≤ (l.take j).length := by simp only [List.length_take]; omega
    conv_rhs => rw [segment, hsplit, List.drop_append_of_le_length hi]
    rfl
  · have hj : l.take j = l := List.take_of_length_le (by omega)
    have hk : l.take k = l := List.take_of_length_le (by omega)
    rw [segment, segment, segment, hj, hk, List.drop_eq_nil_of_le (by omega : l.length ≤ j),
      List.append_nil]

/-- A store inside the array keeps its length. -/
theorem overwrite_length {l : List β} {pos : ℕ} {data : List β} (h : pos + data.length ≤ l.length) :
    (overwrite l pos data).length = l.length := by
  simp only [overwrite, List.length_append, List.length_take, List.length_drop]
  omega

/-- A segment that ends where the store begins, or before, is unchanged. -/
theorem segment_overwrite_below {l : List β} {pos i j : ℕ} {data : List β} (hj : j ≤ pos)
    (hpos : pos ≤ l.length) : segment (overwrite l pos data) i j = segment l i j := by
  rw [segment, segment, overwrite, List.append_assoc,
    List.take_append_of_le_length (by simpa [hpos] using hj), List.take_take, Nat.min_eq_left hj]

/-- The range of the store reads back what was stored. -/
theorem segment_overwrite_self {l : List β} {pos : ℕ} (hpos : pos ≤ l.length) (data : List β) :
    segment (overwrite l pos data) pos (pos + data.length) = data := by
  have hlen : (l.take pos).length = pos := by simp [hpos]
  rw [segment, overwrite, List.take_append_of_le_length (by simp [hlen])]
  rw [List.take_of_length_le (by simp [hlen]), List.drop_append_of_le_length (by simp [hlen]),
    List.drop_eq_nil_of_le (Nat.le_of_eq hlen), List.nil_append]

/-- Cells appended behind the array are outside every segment of it. -/
theorem segment_append_right {l extra : List β} {i j : ℕ} (hj : j ≤ l.length) :
    segment (l ++ extra) i j = segment l i j := by
  rw [segment, segment, List.take_append_of_le_length hj]

end Foundation
