import CcMuduo.Foundation.Run
import Mathlib.Algebra.BigOperators.Group.Finset.Piecewise
import Mathlib.Algebra.Order.BigOperators.Group.Finset

/-!
# Runs that a schedule drives to an end

A schedule chooses the next label in the state it has reached, whatever the environment answers being
part of the choice. When, as long as it is not done, each of its steps is possible and lowers a rank, it
is done after at most as many steps as the rank.
-/

namespace Foundation

variable {σ α : Type*} (step : σ → α → Option σ) (choose : σ → α)

/-- Take a number of steps of the schedule. -/
def drive : ℕ → σ → Option σ
  | 0, s => some s
  | n + 1, s => (step s (choose s)).bind (drive n)

variable {step choose}

/-- The rule for ranks: a schedule whose steps are possible, keep the invariant and lower the rank until
it is done, gets done within the rank. -/
theorem drive_of_rank {I done : σ → Prop} {rank : σ → ℕ}
    (lowers : ∀ s, I s → ¬ done s → ∃ s', step s (choose s) = some s' ∧ I s' ∧ rank s' < rank s)
    {s : σ} (hs : I s) : ∃ n ≤ rank s, ∃ t, drive step choose n s = some t ∧ I t ∧ done t := by
  induction hrank : rank s using Nat.strongRecOn generalizing s with
  | ind bound ih =>
    by_cases hdone : done s
    · exact ⟨0, Nat.zero_le _, s, rfl, hs, hdone⟩
    · obtain ⟨s', hstep, hs', hlt⟩ := lowers s hs hdone
      obtain ⟨n, hn, t, hdrive, ht⟩ := ih (rank s') (hrank ▸ hlt) hs' rfl
      refine ⟨n + 1, by omega, t, ?_, ht⟩
      rw [drive, hstep, Option.bind_some, hdrive]

/-- What is taken from one of the places is more than what comes to any other. -/
theorem sum_lt_sum_of_shift {ι : Type*} [DecidableEq ι] {places : Finset ι} {before after : ι → ℕ}
    {i j : ι} {spent gained : ℕ} (hi : i ∈ places) (hlt : gained < spent)
    (h : ∀ k, after k + (if k = i then spent else 0) ≤ before k + if k = j then gained else 0) :
    ∑ k ∈ places, after k < ∑ k ∈ places, before k := by
  have hsum := Finset.sum_le_sum fun k (_ : k ∈ places) => h k
  rw [Finset.sum_add_distrib, Finset.sum_add_distrib, Finset.sum_ite_eq', Finset.sum_ite_eq', if_pos hi]
    at hsum
  have hgained : (if j ∈ places then gained else 0) ≤ gained := by
    split
    · exact le_rfl
    · exact Nat.zero_le _
  omega

end Foundation
