import Mathlib.Data.List.Basic

/-!
# Runs of labelled partial steps

A system is a partial step function. The label carries everything its environment decides
(which call comes next, what a system call answers), and `none` means that the label is not
possible in that state, so a run is determined by its list of labels.

`Everywhere` speaks of the states a run passes through and `Along` of the steps it takes.
The two rules at the end relate them: a condition that every step meets keeps a property,
and a condition whose first failure breaks the property is exactly the one that keeps it.
-/

namespace Foundation

variable {σ α : Type*} (step : σ → α → Option σ)

/-- Take the labels in order, stopping with `none` at the first one that is not possible. -/
def run : σ → List α → Option σ
  | s, [] => some s
  | s, a :: rest => (step s a).bind fun s' => run s' rest

/-- Every step the run takes meets the condition, read in the state before the step. -/
def Along (C : σ → α → Prop) : σ → List α → Prop
  | _, [] => True
  | s, a :: rest =>
    match step s a with
    | none => True
    | some s' => C s a ∧ Along C s' rest

/-- Every state the run passes through, the first and the last included, has the property. -/
def Everywhere (P : σ → Prop) : σ → List α → Prop
  | s, [] => P s
  | s, a :: rest =>
    P s ∧ match step s a with
      | none => True
      | some s' => Everywhere P s' rest

variable {step}

/-- The state a run has reached after any of its prefixes is one it passes through. -/
theorem Everywhere.of_prefix {P : σ → Prop} {s s' : σ} {pre rest : List α}
    (h : Everywhere step P s (pre ++ rest)) (hrun : run step s pre = some s') : P s' := by
  induction pre generalizing s with
  | nil =>
    simp only [run, Option.some.injEq] at hrun
    subst hrun
    cases rest with
    | nil => exact h
    | cons a rest => exact h.1
  | cons a pre ih =>
    obtain ⟨t, ht, hrun⟩ := Option.bind_eq_some_iff.mp hrun
    have htail := h.2
    rw [ht] at htail
    exact ih htail hrun

/-- The condition on the first step of a run that takes it. -/
theorem along_cons {C : σ → α → Prop} {s s' : σ} {a : α} {rest : List α}
    (h : step s a = some s') : Along step C s (a :: rest) ↔ C s a ∧ Along step C s' rest := by
  simp only [Along, h]

/-- The property on the first state of a run that takes its first step. -/
theorem everywhere_cons {P : σ → Prop} {s s' : σ} {a : α} {rest : List α}
    (h : step s a = some s') :
    Everywhere step P s (a :: rest) ↔ P s ∧ Everywhere step P s' rest := by
  simp only [Everywhere, h]

instance Along.decidable {C : σ → α → Prop} [∀ s a, Decidable (C s a)] :
    (s : σ) → (labels : List α) → Decidable (Along step C s labels)
  | _, [] => isTrue trivial
  | s, a :: rest =>
    match h : step s a with
    | none => isTrue (by simp only [Along, h])
    | some s' =>
      haveI := Along.decidable (C := C) s' rest
      decidable_of_iff _ (along_cons h).symm

instance Everywhere.decidable {P : σ → Prop} [DecidablePred P] :
    (s : σ) → (labels : List α) → Decidable (Everywhere step P s labels)
  | s, [] => inferInstanceAs (Decidable (P s))
  | s, a :: rest =>
    match h : step s a with
    | none => decidable_of_iff (P s) (by simp only [Everywhere, h, and_true])
    | some s' =>
      haveI := Everywhere.decidable (P := P) s' rest
      decidable_of_iff _ (everywhere_cons h).symm

/-- A condition on the steps gives a weaker one. -/
theorem Along.imp {C D : σ → α → Prop} (imp : ∀ s a, C s a → D s a) {s : σ} {labels : List α}
    (h : Along step C s labels) : Along step D s labels := by
  induction labels generalizing s with
  | nil => trivial
  | cons a rest ih =>
    cases hstep : step s a with
    | none => simp only [Along, hstep]
    | some t =>
      obtain ⟨hc, htail⟩ := (along_cons hstep).mp h
      exact (along_cons hstep).mpr ⟨imp s a hc, ih htail⟩

/-- A property of the states gives a weaker one. -/
theorem Everywhere.imp {P Q : σ → Prop} (imp : ∀ s, P s → Q s) {s : σ} {labels : List α}
    (h : Everywhere step P s labels) : Everywhere step Q s labels := by
  induction labels generalizing s with
  | nil => exact imp s h
  | cons a rest ih =>
    cases hstep : step s a with
    | none =>
      simp only [Everywhere, hstep] at h ⊢
      exact ⟨imp s h.1, trivial⟩
    | some t =>
      obtain ⟨hp, htail⟩ := (everywhere_cons hstep).mp h
      exact (everywhere_cons hstep).mpr ⟨imp s hp, ih htail⟩

/-- A condition that every label meets in every state is met along the run. -/
theorem along_of_forall {C : σ → α → Prop} {labels : List α} (h : ∀ a ∈ labels, ∀ s, C s a) (s : σ) :
    Along step C s labels := by
  induction labels generalizing s with
  | nil => trivial
  | cons a rest ih =>
    cases hstep : step s a with
    | none => simp only [Along, hstep]
    | some t =>
      exact (along_cons hstep).mpr ⟨h a (by simp) s, ih (fun b hb => h b (by simp [hb])) t⟩

/-- The rule for conditional invariants: steps that meet the condition keep the invariant, so
a run of such steps passes only through states with the property. -/
theorem everywhere_of_along {I P : σ → Prop} {C : σ → α → Prop}
    (holds : ∀ s, I s → P s)
    (keep : ∀ s a s', I s → C s a → step s a = some s' → I s')
    {s : σ} {labels : List α} (hs : I s) (h : Along step C s labels) :
    Everywhere step P s labels := by
  induction labels generalizing s with
  | nil => exact holds s hs
  | cons a rest ih =>
    cases hstep : step s a with
    | none =>
      simp only [Everywhere, hstep]
      exact ⟨holds s hs, trivial⟩
    | some t =>
      obtain ⟨hc, htail⟩ := (along_cons hstep).mp h
      exact (everywhere_cons hstep).mpr ⟨holds s hs, ih (keep s a t hs hc hstep) htail⟩

/-- A conditional invariant holds of the state that a run of such steps ends in. -/
theorem invariant_of_run {I : σ → Prop} {C : σ → α → Prop}
    (keep : ∀ s a s', I s → C s a → step s a = some s' → I s')
    {s s' : σ} {labels : List α} (hs : I s) (h : Along step C s labels)
    (hrun : run step s labels = some s') : I s' := by
  have hall : Everywhere step I s (labels ++ []) := by
    rw [List.append_nil]
    exact everywhere_of_along (fun _ hi => hi) keep hs h
  exact hall.of_prefix hrun

/-- An invariant holds of the state that a run ends in. -/
theorem invariant_of_steps {I : σ → Prop} (keep : ∀ s a s', I s → step s a = some s' → I s')
    {s s' : σ} {labels : List α} (hs : I s) (hrun : run step s labels = some s') : I s' :=
  invariant_of_run (C := fun _ _ => True) (fun s a s' h _ hstep => keep s a s' h hstep) hs
    (along_of_forall (fun _ _ _ => trivial) s) hrun

/-- The rule for refinement: when every step is, through a function of the state, a step of another system
or none, a run leads where a run of the other system leads. -/
theorem exists_run_of_steps {τ β : Type*} {step' : τ → β → Option τ} {I : σ → Prop} {f : σ → τ}
    (sim : ∀ s a s', I s → step s a = some s' →
      I s' ∧ (f s' = f s ∨ ∃ b, step' (f s) b = some (f s')))
    {s s' : σ} {labels : List α} (hs : I s) (hrun : run step s labels = some s') :
    ∃ labels', run step' (f s) labels' = some (f s') := by
  induction labels generalizing s with
  | nil =>
    obtain rfl := Option.some.inj hrun
    exact ⟨[], rfl⟩
  | cons a rest ih =>
    obtain ⟨t, ht, hrun⟩ := Option.bind_eq_some_iff.mp hrun
    obtain ⟨hinv, hsim⟩ := sim s a t hs ht
    obtain ⟨labels', hlabels⟩ := ih hinv hrun
    rcases hsim with hsame | ⟨b, hb⟩
    · exact ⟨labels', hsame ▸ hlabels⟩
    · exact ⟨b :: labels', Option.bind_eq_some_iff.mpr ⟨f t, hb, hlabels⟩⟩

/-- The rule for step conditions: one condition on the steps of a run gives another, under an
invariant that the steps which meet the first one keep. -/
theorem along_of_along {I : σ → Prop} {C D : σ → α → Prop}
    (keep : ∀ s a s', I s → C s a → step s a = some s' → I s')
    (imp : ∀ s a s', I s → C s a → step s a = some s' → D s a)
    {s : σ} {labels : List α} (hs : I s) (h : Along step C s labels) : Along step D s labels := by
  induction labels generalizing s with
  | nil => trivial
  | cons a rest ih =>
    cases hstep : step s a with
    | none => simp only [Along, hstep]
    | some t =>
      obtain ⟨hc, htail⟩ := (along_cons hstep).mp h
      exact (along_cons hstep).mpr ⟨imp s a t hs hc hstep, ih (keep s a t hs hc hstep) htail⟩

/-- The rule for invariants: when every step keeps it, a run passes only through states with the
property. -/
theorem everywhere_of_invariant {I P : σ → Prop} (holds : ∀ s, I s → P s)
    (keep : ∀ s a s', I s → step s a = some s' → I s') {s : σ} (hs : I s) (labels : List α) :
    Everywhere step P s labels := by
  have hall : Along step (fun _ _ => True) s labels := by
    clear hs
    induction labels generalizing s with
    | nil => trivial
    | cons a rest ih =>
      cases hstep : step s a with
      | none => simp only [Along, hstep]
      | some t => exact (along_cons hstep).mpr ⟨trivial, ih⟩
  exact everywhere_of_along holds (fun s a s' h _ hstep => keep s a s' h hstep) hs hall

/-- The rule for exact conditions: when, in addition, the first step that fails the condition
leads to a state without the property, the condition on the steps is not only enough for the
property but necessary. -/
theorem everywhere_iff_along {I P : σ → Prop} {C : σ → α → Prop}
    (holds : ∀ s, I s → P s)
    (keep : ∀ s a s', I s → C s a → step s a = some s' → I s')
    (break_ : ∀ s a s', I s → ¬ C s a → step s a = some s' → ¬ P s')
    {s : σ} (labels : List α) (hs : I s) :
    Everywhere step P s labels ↔ Along step C s labels := by
  refine ⟨fun h => ?_, everywhere_of_along holds keep hs⟩
  induction labels generalizing s with
  | nil => trivial
  | cons a rest ih =>
    cases hstep : step s a with
    | none => simp only [Along, hstep]
    | some t =>
      have htail := ((everywhere_cons hstep).mp h).2
      have hc : C s a := by
        by_contra hc
        have hreached : Everywhere step P t ([] ++ rest) := htail
        exact break_ s a t hs hc hstep (hreached.of_prefix rfl)
      exact (along_cons hstep).mpr ⟨hc, ih (keep s a t hs hc hstep) htail⟩

end Foundation
