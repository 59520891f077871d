import CcMuduo.Foundation.Run

/-!
# Counting the steps of a kind

How often a run takes a step of a kind is bounded by a potential that every such step raises, that no
step lowers, and that is bounded itself; or, as long as it has not come down to zero, by a rank that every
such step lowers and no step raises.
-/

namespace Foundation

variable {σ α : Type*} (step : σ → α → Option σ)

/-- How many steps of the run meet the condition, read in the state before the step. -/
def countAlong (C : σ → α → Bool) : σ → List α → ℕ
  | _, [] => 0
  | s, a :: rest =>
    match step s a with
    | none => 0
    | some s' => (C s a).toNat + countAlong C s' rest

variable {step}

/-- The rule for potentials. -/
theorem countAlong_le {I : σ → Prop} {C : σ → α → Bool} {D : σ → α → Prop} {v : σ → ℕ}
    {bound : ℕ} (keep : ∀ s a s', I s → D s a → step s a = some s' → I s')
    (raise : ∀ s a s', I s → D s a → step s a = some s' →
      v s + (C s a).toNat ≤ v s')
    (bounded : ∀ s, I s → v s ≤ bound) {s : σ} {labels : List α} (hs : I s)
    (h : Along step D s labels) : v s + countAlong step C s labels ≤ bound := by
  induction labels generalizing s with
  | nil => exact bounded s hs
  | cons a rest ih =>
    cases hstep : step s a with
    | none =>
      simp only [countAlong, hstep]
      exact bounded s hs
    | some s' =>
      obtain ⟨hd, hrest⟩ := (along_cons hstep).mp h
      have hraise := raise s a s' hs hd hstep
      have htail := ih (keep s a s' hs hd hstep) hrest
      simp only [countAlong, hstep]
      omega

/-- The rule for ranks. -/
theorem rank_add_countAlong_le {I : σ → Prop} {C : σ → α → Bool} {D : σ → α → Prop} {rank : σ → ℕ}
    (keep : ∀ s a s', I s → step s a = some s' → I s')
    (lowers : ∀ s a s', I s → D s a → step s a = some s' →
      rank s' = 0 ∨ rank s' + (C s a).toNat ≤ rank s)
    {s t : σ} {labels : List α} (hs : I s) (h : Along step D s labels)
    (hrun : run step s labels = some t) :
    rank t = 0 ∨ rank t + countAlong step C s labels ≤ rank s := by
  induction labels generalizing s with
  | nil =>
    obtain rfl := Option.some.inj hrun
    exact .inr (Nat.le_refl _)
  | cons a rest ih =>
    obtain ⟨s', hstep, hrun⟩ := Option.bind_eq_some_iff.mp hrun
    obtain ⟨hd, hrest⟩ := (along_cons hstep).mp h
    have hlow := lowers s a s' hs hd hstep
    have htail := ih (keep s a s' hs hstep) hrest hrun
    simp only [countAlong, hstep]
    omega

end Foundation
