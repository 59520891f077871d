import CcMuduo.EventLoop.Order
import CcMuduo.Foundation.Lists

/-!
# Functors queued before `quit`

A thread that queues functors and then asks the loop to quit expects them to have been run when
`loop()` returns. They are, unless the loop thread stands between the swap of `doPendingFunctors` and
the test of `quit_` when the request comes, and one of them is behind the swap: the loop returns from
the next test, and nobody takes the queue again.
-/

namespace CcMuduo

open Foundation

variable {T F : Type*} [DecidableEq T]

/-- Is the loop thread behind a swap, or in front of the first one, with the test of `quit_` next? -/
def EventLoop.behindSwap (s : EventLoop T F) : Bool :=
  match s.pc with
  | .test | .running _ _ => true
  | .outside | .polling | .handling _ | .swapping => false

/-- The functors that the loop thread calls before its next test of `quit_`, as the queue stands. -/
def EventLoop.served (s : EventLoop T F) : List (T × F) :=
  match s.pc with
  | .outside | .test => []
  | .running _ functors => functors
  | .polling | .handling _ | .swapping => s.pendingFunctors

/-- A loop with its history and the promises made by `quit`: what was queued up to the last functor of
the thread that called it. -/
structure QuitHistory (T F : Type*) where
  history : LoopHistory T F
  promises : List (List (T × F))

namespace QuitHistory

/-- The loop behind its constructor. -/
def constructed : QuitHistory T F := ⟨.constructed, []⟩

variable (owner : T) (s : QuitHistory T F)

/-- Everything queued up to the last functor of the thread. -/
def queuedBy (t : T) : List (T × F) := s.history.enqueued.rdropWhile fun e => e.1 != t

/-- The promises behind a step: a foreign thread that calls `quit` on a running loop gets one. -/
def promise : LoopLabel T F → List (List (T × F))
  | .quit t =>
    if t ≠ owner ∧ s.history.sys.loop.looping then s.queuedBy t :: s.promises else s.promises
  | _ => s.promises

/-- One step, where `owner` is the loop's own thread. -/
def step (owner : T) (s : QuitHistory T F) (label : LoopLabel T F) : Option (QuitHistory T F) :=
  (s.history.step owner label).map fun history => ⟨history, s.promise owner label⟩

/-- When `loop()` has returned, every promise is kept. -/
def KeepsPromises : Prop :=
  s.history.sys.loop.looping = false → ∀ p ∈ s.promises, p <+: s.history.ran

instance [DecidableEq F] : DecidablePred (KeepsPromises (T := T) (F := F)) := fun s =>
  inferInstanceAs (Decidable (s.history.sys.loop.looping = false → ∀ p ∈ s.promises,
    p <+: s.history.ran))

/-- A foreign `quit` that comes behind a swap finds no functor of its thread in the queue. -/
def quitsInTime (s : QuitHistory T F) : LoopLabel T F → Prop
  | .quit t => t ≠ owner → s.history.sys.loop.behindSwap = true →
      ∀ e ∈ s.history.sys.loop.pendingFunctors, e.1 ≠ t
  | _ => True

instance (s : QuitHistory T F) (label : LoopLabel T F) : Decidable (s.quitsInTime owner label) :=
  match label with
  | .quit t => inferInstanceAs (Decidable (t ≠ owner → s.history.sys.loop.behindSwap = true →
      ∀ e ∈ s.history.sys.loop.pendingFunctors, e.1 ≠ t))
  | .move _ | .queueInLoop _ _ | .queueTest _ | .queueWake _ | .quitTest _ | .quitWake _ =>
    inferInstanceAs (Decidable True)

/-- What every step in time keeps: the functors run so far and those served before the next test of
`quit_` make up every promise. -/
structure Inv : Prop where
  history : s.history.Inv
  promised : ∀ p ∈ s.promises, p <+: s.history.ran ++ s.history.sys.loop.served

variable {owner} {s}

omit [DecidableEq T] in
/-- Outside `loop()` nothing is served. -/
theorem Inv.keepsPromises (h : s.Inv) : s.KeepsPromises := by
  intro hout p hp
  have hserved : s.history.sys.loop.served = [] := by
    unfold EventLoop.looping at hout
    unfold EventLoop.served
    cases hpc : s.history.sys.loop.pc <;> simp_all
  have hprefix := h.promised p hp
  rwa [hserved, List.append_nil] at hprefix

omit [DecidableEq T] in
/-- What a step of the loop thread serves later: its calls move functors from served to run, the other
steps only add to the served ones. -/
theorem served_move {h : LoopHistory T F} {m : EventLoop.Move} {loop : EventLoop T F}
    (hm : h.sys.loop.next m = some loop) :
    h.ran ++ h.sys.loop.served <+:
      (h.record { h.sys with loop := loop } (.move m)).ran ++ loop.served := by
  have hspec := EventLoop.next_spec hm
  cases m with
  | enter | poll | handleRead | handled | swap =>
    obtain ⟨hpc, rfl⟩ := hspec
    simp [LoopHistory.record, EventLoop.served, hpc]
  | test =>
    obtain ⟨hpc, rfl⟩ := hspec
    have hnone : h.sys.loop.served = [] := by simp [EventLoop.served, hpc]
    rw [hnone, List.append_nil]
    exact List.prefix_append _ _
  | call =>
    obtain ⟨called, e, rest, hpc, rfl⟩ := hspec
    simp [LoopHistory.record, EventLoop.served, EventLoop.nextFunctor, hpc]
  | finish =>
    obtain ⟨called, hpc, rfl⟩ := hspec
    simp [LoopHistory.record, EventLoop.served, hpc]

/-- A promise made in time is among what was run and what is served before the next test. -/
theorem Inv.promised_quit (h : s.Inv) {t : T} (hin : s.history.sys.loop.looping = true)
    (htime : s.history.sys.loop.behindSwap = true →
      ∀ e ∈ s.history.sys.loop.pendingFunctors, e.1 ≠ t) :
    s.queuedBy t <+: s.history.ran ++ s.history.sys.loop.served := by
  have horder := h.history.inOrder.order
  unfold queuedBy
  cases hswap : s.history.sys.loop.behindSwap with
  | true =>
    have hserved : s.history.sys.loop.served = s.history.sys.loop.rest := by
      unfold EventLoop.behindSwap at hswap
      unfold EventLoop.served EventLoop.rest
      cases hpc : s.history.sys.loop.pc <;> simp_all
    rw [← horder, rdropWhile_append_of_forall _ fun e he => by simpa using htime hswap e he, hserved]
    exact List.rdropWhile_prefix _ _
  | false =>
    have hserved : s.history.sys.loop.served = s.history.sys.loop.pendingFunctors ∧
        s.history.sys.loop.rest = [] := by
      unfold EventLoop.behindSwap at hswap
      unfold EventLoop.looping at hin
      unfold EventLoop.served EventLoop.rest
      cases hpc : s.history.sys.loop.pc <;> simp_all
    rw [hserved.2, List.append_nil] at horder
    rw [hserved.1, horder]
    exact List.rdropWhile_prefix _ _

omit [DecidableEq T] in
/-- Queueing a functor only adds to what is served. -/
theorem served_enqueue (loop : EventLoop T F) (t : T) (cb : F) :
    loop.served <+: (loop.enqueue t cb).served := by
  unfold EventLoop.served EventLoop.enqueue
  cases loop.pc <;> simp

/-- Every step in time keeps the promises. -/
theorem Inv.step {s' : QuitHistory T F} {label : LoopLabel T F} (h : s.Inv)
    (htime : s.quitsInTime owner label) (hstep : s.step owner label = some s') : s'.Inv := by
  obtain ⟨history, hhistory, rfl⟩ := Option.map_eq_some_iff.mp hstep
  refine ⟨h.history.step hhistory, ?_⟩
  obtain ⟨sys, hsys, rfl⟩ := Option.map_eq_some_iff.mp hhistory
  cases LoopSystem.step_spec hsys with
  | move _ hnext =>
    intro p hp
    apply (h.promised p hp).trans
    simpa only [LoopHistory.record_sys] using served_move hnext
  | queueInLoop =>
    intro p hp
    apply (h.promised p hp).trans
    exact (List.prefix_append_right_inj _).mpr (served_enqueue _ _ _)
  | @quit t =>
    intro p hp
    by_cases hpromise : t ≠ owner ∧ s.history.sys.loop.looping = true
    · rw [promise, if_pos hpromise] at hp
      rcases List.mem_cons.mp hp with rfl | hold
      · exact h.promised_quit hpromise.2 (htime hpromise.1)
      · exact h.promised p hold
    · rw [promise, if_neg hpromise] at hp
      exact h.promised p hp
  | queueTest | quitTest => exact h.promised
  | queueWake _ hwake | quitWake _ hwake =>
    obtain rfl := EventLoop.wakeup_spec hwake
    exact h.promised

end QuitHistory

/-- In every run in which each foreign `quit` behind a swap finds no functor of its own thread in the
queue, the functors a thread queued before its `quit` have been run when `loop()` returns. -/
theorem keepsPromises_of_quitsInTime (owner : T) (labels : List (LoopLabel T F))
    (h : Along (QuitHistory.step owner) (QuitHistory.quitsInTime owner) .constructed labels) :
    Everywhere (QuitHistory.step owner) QuitHistory.KeepsPromises .constructed labels := by
  refine everywhere_of_along (I := QuitHistory.Inv) (fun _ hs => hs.keepsPromises)
    (fun _ _ _ hs hc hstep => hs.step hc hstep) ?_ h
  refine ⟨⟨rfl, rfl, ?_, ?_⟩, ?_⟩ <;>
    simp [QuitHistory.constructed, LoopHistory.constructed]

/-- A functor queued and a `quit` while the loop thread is in `poll`. -/
theorem keepsPromises_polling :
    Everywhere (QuitHistory.step true) QuitHistory.KeepsPromises QuitHistory.constructed
      [.move .enter, .move .test, .queueInLoop false 7, .queueTest false, .queueWake false,
        .quit false, .quitTest false, .quitWake false, .move .poll, .move .handleRead,
        .move .handled, .move .swap, .move .call, .move .finish, .move .test] :=
  keepsPromises_of_quitsInTime true _ (by decide)

/-- The queue is swapped, then another thread queues a functor and calls `quit`: the loop returns with
the functor in its queue. -/
theorem keepsPromises_behind_swap :
    ¬ Everywhere (QuitHistory.step true) QuitHistory.KeepsPromises
      (QuitHistory.constructed (F := ℕ))
      [.move .enter, .move .test, .move .poll, .move .handled, .move .swap,
        .queueInLoop false 7, .queueTest false, .queueWake false,
        .quit false, .quitTest false, .quitWake false, .move .finish, .move .test] := by
  decide

end CcMuduo
