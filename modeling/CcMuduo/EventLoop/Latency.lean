import CcMuduo.EventLoop.Order
import CcMuduo.Foundation.Counting

/-!
# How long a functor waits

Functors that are queued later come behind it, so a functor that waits is called within a number of
moves of the loop thread that is settled when it is queued, whatever the other threads do: the rest of
the batch, one iteration up to the swap, and the functors in front of it. The loop thread returns from
`poll` once at most in the meantime. A request to quit is what can end the loop before.
-/

namespace CcMuduo

open Foundation

variable {T F : Type*}

namespace EventLoop

variable (s : EventLoop T F)

/-- The moves of the loop thread up to its next swap, behind the functors of the batch. -/
def lead : ℕ :=
  match s.pc with
  | .outside | .running _ _ => 6
  | .test => 5
  | .polling => 4
  | .handling true => 3
  | .handling false => 2
  | .swapping => 1

/-- The moves of the loop thread until the first `k` of the waiting functors are called. -/
def latency (k : ℕ) : ℕ := if k ≤ s.rest.length then k else k + s.lead

/-- One more than the returns from `poll` until then. -/
def polls (k : ℕ) : ℕ :=
  if k = 0 then 0
  else if k ≤ s.rest.length then 1
  else match s.pc with
    | .outside | .running _ _ | .test | .polling => 2
    | .handling _ | .swapping => 1

variable {s} {s' : EventLoop T F} {m : Move} {k : ℕ}

/-- The functors that wait behind a move when `k` of them waited before. -/
def Move.left (m : Move) (k : ℕ) : ℕ := if m = .call then k - 1 else k

/-- A move of the loop thread lowers the latency, unless nothing is left to wait for. -/
theorem latency_next (h : s.next m = some s') (hquit : m = .test → s.quit = false)
    (hk : k ≤ s.waiting.length) : s'.latency (m.left k) = 0 ∨ s'.latency (m.left k) + 1 ≤ s.latency k := by
  rw [waiting_eq, List.length_append] at hk
  have hspec := next_spec h
  unfold latency lead Move.left rest at *
  cases m with
  | enter | handleRead | handled =>
    obtain ⟨hpc, rfl⟩ := hspec
    simp only [hpc, List.length_nil, reduceCtorEq, if_false]
    split <;> omega
  | test =>
    obtain ⟨hpc, rfl⟩ := hspec
    simp only [hpc, hquit rfl, List.length_nil, reduceCtorEq, if_false]
    split <;> omega
  | poll =>
    obtain ⟨hpc, rfl⟩ := hspec
    simp only [hpc, List.length_nil, reduceCtorEq, if_false]
    split
    · omega
    · cases decide (0 < s.wakeupCount) <;> simp
  | swap =>
    obtain ⟨hpc, rfl⟩ := hspec
    simp only [hpc, List.length_nil, Nat.zero_add, reduceCtorEq, if_false] at hk ⊢
    rw [if_pos hk]
    split <;> omega
  | call =>
    obtain ⟨called, e, rest, hpc, rfl⟩ := hspec
    simp only [hpc, List.length_cons, if_true]
    split <;> split <;> omega
  | finish =>
    obtain ⟨called, hpc, rfl⟩ := hspec
    simp only [hpc, List.length_nil, reduceCtorEq, if_false]
    split <;> omega

/-- The loop thread returns from `poll` once at most before nothing is left to wait for. -/
theorem polls_next (h : s.next m = some s') (hquit : m = .test → s.quit = false)
    (hk : k ≤ s.waiting.length) :
    s'.polls (m.left k) = 0 ∨ s'.polls (m.left k) + (decide (m = .poll)).toNat ≤ s.polls k := by
  rw [waiting_eq, List.length_append] at hk
  have hspec := next_spec h
  unfold polls Move.left rest at *
  cases m with
  | enter | handleRead | handled | poll =>
    obtain ⟨hpc, rfl⟩ := hspec
    simp only [hpc, List.length_nil, reduceCtorEq, if_false]
    split <;> simp_all
  | test =>
    obtain ⟨hpc, rfl⟩ := hspec
    simp only [hpc, hquit rfl, List.length_nil, reduceCtorEq, if_false]
    split <;> simp_all
  | swap =>
    obtain ⟨hpc, rfl⟩ := hspec
    simp only [hpc, List.length_nil, Nat.zero_add, reduceCtorEq, if_false] at hk ⊢
    rw [if_pos hk]
    split <;> simp_all
  | call =>
    obtain ⟨called, e, rest, hpc, rfl⟩ := hspec
    cases k with
    | zero => simp
    | succ k =>
      simp only [hpc, List.length_cons, if_true, Nat.add_sub_cancel, Nat.add_le_add_iff_right]
      split <;> split <;> simp
  | finish =>
    obtain ⟨called, hpc, rfl⟩ := hspec
    simp only [hpc, List.length_nil, reduceCtorEq, if_false]
    split <;> simp_all

/-- The latency depends on the place of the loop thread. -/
theorem latency_of_pc (h : s'.pc = s.pc) (k : ℕ) : s'.latency k = s.latency k := by
  unfold latency lead rest
  rw [h]

/-- And so do the returns from `poll`. -/
theorem polls_of_pc (h : s'.pc = s.pc) (k : ℕ) : s'.polls k = s.polls k := by
  unfold polls rest
  rw [h]

/-- Nothing is left to wait for when the latency has come down to zero. -/
theorem eq_zero_of_latency (h : s.latency k = 0) : k = 0 := by
  unfold latency at h
  split at h <;> omega

/-- And so for the returns from `poll`. -/
theorem eq_zero_of_polls (h : s.polls k = 0) : k = 0 := by
  by_contra hk
  simp only [polls, if_neg hk] at h
  split at h
  · contradiction
  · cases hpc : s.pc <;> simp [hpc] at h

/-- The loop thread returns from `poll` once at most. -/
theorem polls_le (s : EventLoop T F) (k : ℕ) : s.polls k ≤ 2 := by
  unfold polls
  split
  · exact Nat.zero_le 2
  · split
    · decide
    · cases s.pc <;> simp

end EventLoop

/-- Is it a move of the loop thread of that kind? -/
def LoopLabel.moves (counted : EventLoop.Move → Bool) : LoopLabel T F → Bool
  | .move m => counted m
  | .queueInLoop _ _ | .queueTest _ | .queueWake _ | .quit _ | .quitTest _ | .quitWake _ => false

namespace LoopHistory

/-- The loop thread finds `quit_` clear at its test. -/
def goesOn (h : LoopHistory T F) : LoopLabel T F → Prop
  | .move .test => h.sys.loop.quit = false
  | _ => True

instance (h : LoopHistory T F) : DecidablePred h.goesOn
  | .move m => match m with
    | .test => inferInstanceAs (Decidable (h.sys.loop.quit = false))
    | .enter | .poll | .handleRead | .handled | .swap | .call | .finish =>
      inferInstanceAs (Decidable True)
  | .queueInLoop _ _ | .queueTest _ | .queueWake _ | .quit _ | .quitTest _ | .quitWake _ =>
    inferInstanceAs (Decidable True)

/-- How many of the functors are still to be called. -/
def left (goal : List (T × F)) (h : LoopHistory T F) : ℕ := goal.length - h.ran.length

variable {owner : T} {h h' : LoopHistory T F} {goal : List (T × F)}

/-- Nothing is queued behind the constructor. -/
theorem constructed_inv : (constructed : LoopHistory T F).Inv :=
  ⟨rfl, rfl, by simp [constructed], by simp [constructed]⟩

/-- What was queued before and has not been called waits. -/
theorem Inv.left_le (hinv : h.Inv) (hgoal : goal <+: h.enqueued) : h.left goal ≤ h.sys.loop.waiting.length := by
  have hlength := congrArg List.length hinv.waiting
  have hle := hgoal.length_le
  rw [List.length_append] at hlength
  unfold left
  omega

/-- When none is left, all have been called, in order. -/
theorem Inv.prefix_ran (hinv : h.Inv) (hgoal : goal <+: h.enqueued) (hleft : h.left goal = 0) :
    goal <+: h.ran := by
  have hran : h.ran <+: h.enqueued := ⟨_, hinv.waiting⟩
  refine List.prefix_of_prefix_length_le hgoal hran ?_
  unfold left at hleft
  omega

/-- A call leaves one functor less, another move as many as before. -/
theorem left_move {m : EventLoop.Move} {loop : EventLoop T F} (hnext : h.sys.loop.next m = some loop) :
    (h.record { h.sys with loop := loop } (.move m)).left goal = m.left (h.left goal) := by
  cases m with
  | enter | test | poll | handleRead | handled | swap | finish => rfl
  | call =>
    obtain ⟨called, e, rest, hpc, -⟩ := EventLoop.next_spec hnext
    simp only [left, record, EventLoop.Move.left, EventLoop.nextFunctor, hpc, Option.toList_some,
      List.length_append, List.length_singleton, if_true]
    omega

variable [DecidableEq T]

/-- A measure of the loop thread's place and of the functors that wait, which the moves of the loop thread
lower, is not raised by the other threads. -/
theorem measure_step {measure : EventLoop T F → ℕ → ℕ} {counted : EventLoop.Move → Bool}
    (place : ∀ s s' k, s'.pc = s.pc → measure s' k = measure s k)
    (lowers : ∀ s s' m k, s.next m = some s' → (m = .test → s.quit = false) → k ≤ s.waiting.length →
      measure s' (m.left k) = 0 ∨ measure s' (m.left k) + (counted m).toNat ≤ measure s k)
    (hinv : h.Inv) (hgoal : goal <+: h.enqueued) {label : LoopLabel T F} (hgoes : h.goesOn label)
    (hs : h.step owner label = some h') :
    measure h'.sys.loop (h'.left goal) = 0 ∨
      measure h'.sys.loop (h'.left goal) + (label.moves counted).toNat ≤
        measure h.sys.loop (h.left goal) := by
  have still {g : LoopHistory T F} (hpc : g.sys.loop.pc = h.sys.loop.pc) (hran : g.ran = h.ran) :
      measure g.sys.loop (g.left goal) ≤ measure h.sys.loop (h.left goal) := by
    rw [left, left, hran, place _ _ _ hpc]
  obtain ⟨sys, hsys, rfl⟩ := Option.map_eq_some_iff.mp hs
  cases LoopSystem.step_spec hsys with
  | @move m loop _ hnext =>
    rw [left_move hnext, record_sys]
    refine lowers _ _ m _ hnext (fun htest => ?_) (hinv.left_le hgoal)
    subst htest
    exact hgoes
  | queueInLoop | queueTest | quit | quitTest => exact .inr (still rfl rfl)
  | queueWake _ hwake | quitWake _ hwake =>
    obtain rfl := EventLoop.wakeup_spec hwake
    exact .inr (still rfl rfl)

/-- What was queued stays on record. -/
theorem enqueued_step {label : LoopLabel T F} (hs : h.step owner label = some h') :
    h.enqueued <+: h'.enqueued := by
  obtain ⟨sys, hsys, rfl⟩ := Option.map_eq_some_iff.mp hs
  cases label with
  | move m => cases m <;> exact List.prefix_rfl
  | queueInLoop t cb => exact List.prefix_append _ _
  | queueTest | queueWake | quit | quitTest | quitWake => exact List.prefix_rfl

end LoopHistory

/-- In every run, whatever the threads queue behind a state, as long as not all the functors that were
queued by then have been called, in order, the loop thread has made fewer moves than their latency and has
returned from `poll` once at most, unless it was told to leave. -/
theorem functors_within_latency [DecidableEq T] (owner : T) (before after : List (LoopLabel T F))
    (h h' : LoopHistory T F) (hbefore : run (LoopHistory.step owner) .constructed before = some h)
    (hafter : run (LoopHistory.step owner) h after = some h')
    (hgoes : Along (LoopHistory.step owner) LoopHistory.goesOn h after) :
    h.enqueued <+: h'.ran ∨
      countAlong (LoopHistory.step owner) (fun _ label => label.moves fun _ => true) h after <
          h.sys.loop.latency h.sys.loop.waiting.length ∧
        countAlong (LoopHistory.step owner) (fun _ label => label.moves fun m => m = .poll) h after ≤ 1 := by
  have keep (g : LoopHistory T F) (label : LoopLabel T F) (g' : LoopHistory T F)
      (hg : g.Inv ∧ h.enqueued <+: g.enqueued) (hstep : g.step owner label = some g') :
      g'.Inv ∧ h.enqueued <+: g'.enqueued :=
    ⟨hg.1.step hstep, hg.2.trans (LoopHistory.enqueued_step hstep)⟩
  have hinv : h.Inv :=
    invariant_of_steps (fun _ _ _ hg hstep => hg.step hstep) LoopHistory.constructed_inv hbefore
  have hstart : h.left h.enqueued = h.sys.loop.waiting.length := by
    rw [LoopHistory.left, ← hinv.waiting, List.length_append, Nat.add_sub_cancel_left]
  obtain ⟨hinv', hgoal⟩ := invariant_of_steps keep ⟨hinv, List.prefix_rfl⟩ hafter
  by_cases hleft : h'.left h.enqueued = 0
  · exact .inl (hinv'.prefix_ran hgoal hleft)
  · have hlatency := rank_add_countAlong_le (C := fun _ label => label.moves fun _ => true) keep
      (fun _ _ _ hg hgo hstep => LoopHistory.measure_step
        (fun _ _ k hpc => EventLoop.latency_of_pc hpc k)
        (fun _ _ _ _ hnext => EventLoop.latency_next hnext) hg.1 hg.2 hgo hstep)
      ⟨hinv, List.prefix_rfl⟩ hgoes hafter
    have hpolls := rank_add_countAlong_le (C := fun _ label => label.moves fun m => m = .poll) keep
      (fun _ _ _ hg hgo hstep => LoopHistory.measure_step
        (fun _ _ k hpc => EventLoop.polls_of_pc hpc k)
        (fun _ _ _ _ hnext => EventLoop.polls_next hnext) hg.1 hg.2 hgo hstep)
      ⟨hinv, List.prefix_rfl⟩ hgoes hafter
    have hsome : h'.sys.loop.latency (h'.left h.enqueued) ≠ 0 := mt EventLoop.eq_zero_of_latency hleft
    have hsome' : h'.sys.loop.polls (h'.left h.enqueued) ≠ 0 := mt EventLoop.eq_zero_of_polls hleft
    have hlate := hlatency.resolve_left hsome
    have hpolled := hpolls.resolve_left hsome'
    have hle := EventLoop.polls_le h.sys.loop (h.left h.enqueued)
    rw [hstart] at hlate
    exact .inr ⟨by omega, by omega⟩

/-- A thread queues a functor while another one of it runs, and a third one later: behind the call of the
first, one iteration takes the second one out. -/
theorem functors_within_latency_foreign : ∃ h h' : LoopHistory Bool ℕ,
    run (LoopHistory.step true) .constructed [.queueInLoop false 7, .queueTest false, .queueWake false,
      .move .enter, .move .test, .move .poll, .move .handleRead, .move .handled, .move .swap, .move .call,
      .queueInLoop false 8] = some h ∧
    run (LoopHistory.step true) h [.queueTest false, .queueWake false, .move .finish, .move .test,
      .queueInLoop false 9, .move .poll, .move .handleRead, .move .handled] = some h' ∧
    (h.enqueued <+: h'.ran ∨
      countAlong (LoopHistory.step true) (fun _ label => label.moves fun _ => true) h
          [.queueTest false, .queueWake false, .move .finish, .move .test, .queueInLoop false 9, .move .poll,
            .move .handleRead, .move .handled] < h.sys.loop.latency h.sys.loop.waiting.length ∧
        countAlong (LoopHistory.step true) (fun _ label => label.moves fun m => m = .poll) h
          [.queueTest false, .queueWake false, .move .finish, .move .test, .queueInLoop false 9, .move .poll,
            .move .handleRead, .move .handled] ≤ 1) := by
  have hbefore : (run (LoopHistory.step true) (.constructed : LoopHistory Bool ℕ) [.queueInLoop false 7,
      .queueTest false, .queueWake false, .move .enter, .move .test, .move .poll, .move .handleRead,
      .move .handled, .move .swap, .move .call, .queueInLoop false 8]).isSome = true := by decide
  have hafter : (run (LoopHistory.step true) ((run (LoopHistory.step true)
      (.constructed : LoopHistory Bool ℕ) [.queueInLoop false 7, .queueTest false, .queueWake false,
      .move .enter, .move .test, .move .poll, .move .handleRead, .move .handled, .move .swap, .move .call,
      .queueInLoop false 8]).get hbefore) [.queueTest false, .queueWake false, .move .finish, .move .test,
      .queueInLoop false 9, .move .poll, .move .handleRead, .move .handled]).isSome = true := by
    decide +revert
  exact ⟨_, _, (Option.some_get hbefore).symm, (Option.some_get hafter).symm,
    functors_within_latency true _ _ _ _ (Option.some_get hbefore).symm (Option.some_get hafter).symm
      (by decide +revert)⟩

end CcMuduo
