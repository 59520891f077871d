import CcMuduo.EventLoop
import CcMuduo.Foundation.Run
import Mathlib.Logic.Function.Basic

/-!
# No lost wakeup

One event loop and any number of threads that queue functors and ask it to quit, with
`isInLoopThread()` true exactly on the loop's own thread.

A functor queued while the loop thread is in `poll` has a wakeup written or about to be written: a
foreign thread always writes one, a functor queued by a functor does so because of
`callingPendingFunctors`, and one queued by an event handler is taken out in the same iteration. The
loop thread in front of `loop()` is the case left out: its functors wait for the first `poll` to
return by itself.
-/

namespace CcMuduo

open Foundation

variable {T F : Type*} [DecidableEq T]

/-- An event loop with the place of each thread in its calls. -/
structure LoopSystem (T F : Type*) where
  loop : EventLoop T F
  calls : T → CallPc

/-- A step of the loop thread, or of a thread in `queueInLoop` or `quit`. -/
inductive LoopLabel (T F : Type*) where
  | move (m : EventLoop.Move)
  | queueInLoop (t : T) (cb : F)
  | queueTest (t : T)
  | queueWake (t : T)
  | quit (t : T)
  | quitTest (t : T)
  | quitWake (t : T)

namespace LoopSystem

/-- The loop behind its constructor, with no call under way. -/
def constructed : LoopSystem T F := ⟨.constructed, fun _ => .idle⟩

variable (s : LoopSystem T F)

/-- May the thread start a call? The loop thread can only in user code. -/
def free (owner t : T) : Bool :=
  s.calls t == .idle && (t != owner || s.loop.inUserCode)

/-- One step, where `owner` is the loop's own thread. -/
def step (owner : T) (s : LoopSystem T F) : LoopLabel T F → Option (LoopSystem T F)
  | .move m =>
    if s.calls owner = .idle then (s.loop.next m).map fun loop => { s with loop := loop } else none
  | .queueInLoop t cb =>
    if s.free owner t then
      some ⟨s.loop.enqueue t cb, Function.update s.calls t .queueTest⟩
    else none
  | .queueTest t =>
    if s.calls t = .queueTest then
      some { s with calls := Function.update s.calls t (s.loop.afterQueueTest (t == owner)) }
    else none
  | .queueWake t =>
    if s.calls t = .queueWake then
      s.loop.wakeup.map fun loop => ⟨loop, Function.update s.calls t .idle⟩
    else none
  | .quit t =>
    if s.free owner t then some ⟨s.loop.setQuit, Function.update s.calls t .quitTest⟩ else none
  | .quitTest t =>
    if s.calls t = .quitTest then
      some { s with calls := Function.update s.calls t (EventLoop.afterQuitTest (t == owner)) }
    else none
  | .quitWake t =>
    if s.calls t = .quitWake then
      s.loop.wakeup.map fun loop => ⟨loop, Function.update s.calls t .idle⟩
    else none

/-- What a step does, with the conditions under which it is taken. -/
inductive Step (owner : T) (s : LoopSystem T F) : LoopLabel T F → LoopSystem T F → Prop where
  | move {m : EventLoop.Move} {loop : EventLoop T F} (hidle : s.calls owner = .idle)
      (hnext : s.loop.next m = some loop) :
    Step owner s (.move m) { s with loop := loop }
  | queueInLoop {t : T} {cb : F} (hfree : s.free owner t = true) :
    Step owner s (.queueInLoop t cb) ⟨s.loop.enqueue t cb, Function.update s.calls t .queueTest⟩
  | queueTest {t : T} (ht : s.calls t = .queueTest) :
    Step owner s (.queueTest t)
      { s with calls := Function.update s.calls t (s.loop.afterQueueTest (t == owner)) }
  | queueWake {t : T} {loop : EventLoop T F} (ht : s.calls t = .queueWake)
      (hwake : s.loop.wakeup = some loop) :
    Step owner s (.queueWake t) ⟨loop, Function.update s.calls t .idle⟩
  | quit {t : T} (hfree : s.free owner t = true) :
    Step owner s (.quit t) ⟨s.loop.setQuit, Function.update s.calls t .quitTest⟩
  | quitTest {t : T} (ht : s.calls t = .quitTest) :
    Step owner s (.quitTest t)
      { s with calls := Function.update s.calls t (EventLoop.afterQuitTest (t == owner)) }
  | quitWake {t : T} {loop : EventLoop T F} (ht : s.calls t = .quitWake)
      (hwake : s.loop.wakeup = some loop) :
    Step owner s (.quitWake t) ⟨loop, Function.update s.calls t .idle⟩

/-- Every step is one of these. -/
theorem step_spec {owner : T} {s s' : LoopSystem T F} {label : LoopLabel T F}
    (h : s.step owner label = some s') : s.Step owner label s' := by
  cases label with
  | move m =>
    obtain ⟨hidle, hs⟩ := Option.ite_none_right_eq_some.mp h
    obtain ⟨loop, hnext, rfl⟩ := Option.map_eq_some_iff.mp hs
    exact .move hidle hnext
  | queueInLoop t cb =>
    obtain ⟨hfree, hs⟩ := Option.ite_none_right_eq_some.mp h
    obtain rfl := Option.some.inj hs
    exact .queueInLoop hfree
  | queueTest t =>
    obtain ⟨ht, hs⟩ := Option.ite_none_right_eq_some.mp h
    obtain rfl := Option.some.inj hs
    exact .queueTest ht
  | queueWake t =>
    obtain ⟨ht, hs⟩ := Option.ite_none_right_eq_some.mp h
    obtain ⟨loop, hwake, rfl⟩ := Option.map_eq_some_iff.mp hs
    exact .queueWake ht hwake
  | quit t =>
    obtain ⟨hfree, hs⟩ := Option.ite_none_right_eq_some.mp h
    obtain rfl := Option.some.inj hs
    exact .quit hfree
  | quitTest t =>
    obtain ⟨ht, hs⟩ := Option.ite_none_right_eq_some.mp h
    obtain rfl := Option.some.inj hs
    exact .quitTest ht
  | quitWake t =>
    obtain ⟨ht, hs⟩ := Option.ite_none_right_eq_some.mp h
    obtain ⟨loop, hwake, rfl⟩ := Option.map_eq_some_iff.mp hs
    exact .quitWake ht hwake

/-- The thread is in `queueInLoop`, between the mutex and the write of the eventfd. -/
def aboutToWake (t : T) : Prop := s.calls t = .queueTest ∨ s.calls t = .queueWake

instance (t : T) : Decidable (s.aboutToWake t) :=
  inferInstanceAs (Decidable (s.calls t = .queueTest ∨ s.calls t = .queueWake))

/-- A non-empty queue has a wakeup written, or about to be written by a thread that queued one of its
functors. -/
def Covered : Prop :=
  s.loop.pendingFunctors ≠ [] →
    0 < s.loop.wakeupCount ∨ ∃ e ∈ s.loop.pendingFunctors, s.aboutToWake e.1

/-- No wakeup is lost: `Covered` while the loop thread is in `poll`. -/
def NoLostWakeup : Prop := s.loop.pc = .polling → s.Covered

instance [DecidableEq F] : DecidablePred (NoLostWakeup (T := T) (F := F)) := fun s =>
  inferInstanceAs (Decidable (s.loop.pc = .polling → s.loop.pendingFunctors ≠ [] →
    0 < s.loop.wakeupCount ∨ ∃ e ∈ s.loop.pendingFunctors, s.aboutToWake e.1))

/-- The loop thread queues functors only inside `loop()`. -/
def queuesInside (owner : T) (s : LoopSystem T F) : LoopLabel T F → Prop
  | .queueInLoop t _ => t = owner → s.loop.pc ≠ .outside
  | _ => True

instance [DecidableEq F] (owner : T) (s : LoopSystem T F) (label : LoopLabel T F) :
    Decidable (queuesInside owner s label) :=
  match label with
  | .queueInLoop t _ => inferInstanceAs (Decidable (t = owner → s.loop.pc ≠ .outside))
  | .move _ | .queueTest _ | .queueWake _ | .quit _ | .quitTest _ | .quitWake _ =>
    inferInstanceAs (Decidable True)

/-- The loop thread is in a place where the queue has to be covered: everywhere but between the return
of `poll` and the swap, which takes the whole queue. -/
def exposed : Bool :=
  match s.loop.pc with
  | .outside | .test | .polling | .running _ _ => true
  | .handling _ | .swapping => false

/-- What every step keeps while the loop thread queues functors only inside `loop()`. -/
structure Inv (owner : T) (s : LoopSystem T F) : Prop where
  covered : s.exposed = true → s.Covered
  calling : ∀ called functors, s.loop.pc = .running called functors →
    s.loop.callingPendingFunctors = true
  swapping : s.loop.pc = .swapping → s.loop.callingPendingFunctors = true
  owner_calls : s.aboutToWake owner →
    (∃ active, s.loop.pc = .handling active) ∨ ∃ functors, s.loop.pc = .running true functors

omit [DecidableEq T] in
/-- A positive counter covers every queue. -/
theorem covered_of_count {s : LoopSystem T F} (h : 0 < s.loop.wakeupCount) : s.Covered :=
  fun _ => .inl h

omit [DecidableEq T] in
/-- A step that changes calls only, and of no thread whether it is about to wake the loop, keeps the
invariant. -/
theorem Inv.of_calls {owner : T} {s : LoopSystem T F} (h : Inv owner s) {calls : T → CallPc}
    (hcalls : ∀ t, (LoopSystem.mk s.loop calls).aboutToWake t ↔ s.aboutToWake t) :
    Inv owner ⟨s.loop, calls⟩ := by
  refine ⟨fun hexposed hne => ?_, h.calling, h.swapping, fun howner => h.owner_calls ((hcalls _).mp howner)⟩
  exact (h.covered hexposed hne).imp id fun ⟨e, he, hwake⟩ => ⟨e, he, (hcalls _).mpr hwake⟩

omit [DecidableEq T] in
/-- A step of the loop thread keeps the invariant. -/
theorem Inv.move {owner : T} {s : LoopSystem T F} {loop : EventLoop T F} {m : EventLoop.Move}
    (h : Inv owner s) (hidle : s.calls owner = .idle) (hm : s.loop.next m = some loop) :
    Inv owner ⟨loop, s.calls⟩ := by
  have howner : ¬ s.aboutToWake owner := by simp [aboutToWake, hidle]
  have covered (hpc : s.exposed = true) : s.Covered := h.covered hpc
  unfold exposed at covered
  have hspec := EventLoop.next_spec hm
  cases m with
  | enter =>
    obtain ⟨hpc, rfl⟩ := hspec
    exact ⟨fun _ => covered (by simp [hpc]), by simp, by simp, fun hwake => absurd hwake howner⟩
  | test =>
    obtain ⟨hpc, rfl⟩ := hspec
    refine ⟨fun _ => covered (by simp [hpc]), ?_, ?_, fun hwake => absurd hwake howner⟩ <;>
      dsimp only <;> split <;> simp
  | poll =>
    obtain ⟨hpc, rfl⟩ := hspec
    exact ⟨by simp [exposed], by simp, by simp, fun hwake => absurd hwake howner⟩
  | handleRead =>
    obtain ⟨hpc, rfl⟩ := hspec
    exact ⟨by simp [exposed], by simp, by simp, fun hwake => absurd hwake howner⟩
  | handled =>
    obtain ⟨hpc, rfl⟩ := hspec
    exact ⟨by simp [exposed], by simp, by simp, fun hwake => absurd hwake howner⟩
  | swap =>
    obtain ⟨hpc, rfl⟩ := hspec
    exact ⟨fun _ hne => absurd rfl hne, fun _ _ _ => h.swapping hpc, by simp,
      fun hwake => absurd hwake howner⟩
  | call =>
    obtain ⟨called, e, rest, hpc, rfl⟩ := hspec
    exact ⟨fun _ => covered (by simp [hpc]), fun _ _ _ => h.calling _ _ hpc, by simp,
      fun hwake => absurd hwake howner⟩
  | finish =>
    obtain ⟨called, hpc, rfl⟩ := hspec
    exact ⟨fun _ => covered (by simp [hpc]), by simp, by simp, fun hwake => absurd hwake howner⟩

/-- Writing the eventfd keeps the invariant. -/
theorem Inv.wake {owner : T} {s : LoopSystem T F} {loop : EventLoop T F} (h : Inv owner s) (t : T)
    (hwake : s.loop.wakeup = some loop) : Inv owner ⟨loop, Function.update s.calls t .idle⟩ := by
  obtain rfl := EventLoop.wakeup_spec hwake
  refine ⟨fun _ => covered_of_count (Nat.succ_pos _), h.calling, h.swapping, fun howner => ?_⟩
  refine h.owner_calls ?_
  by_cases ht : owner = t
  · subst ht
    simp [aboutToWake] at howner
  · simpa [aboutToWake, ht] using howner

/-- Queueing a functor inside `loop()`, or from another thread, keeps the invariant. -/
theorem Inv.queueInLoop {owner : T} {s : LoopSystem T F} {t : T} {cb : F} (h : Inv owner s)
    (hfree : s.free owner t = true) (hinside : t = owner → s.loop.pc ≠ .outside) :
    Inv owner ⟨s.loop.enqueue t cb, Function.update s.calls t .queueTest⟩ := by
  refine ⟨fun _ _ => .inr ⟨(t, cb), by simp [EventLoop.enqueue], .inl (by simp)⟩, h.calling,
    h.swapping, fun howner => ?_⟩
  change (∃ active, s.loop.pc = .handling active) ∨ ∃ functors, s.loop.pc = .running true functors
  by_cases ht : t = owner
  · simp only [free, ht, bne_self_eq_false, Bool.false_or, Bool.and_eq_true] at hfree
    have huser := hfree.2
    have houtside := hinside ht
    unfold EventLoop.inUserCode at huser
    split at huser
    · contradiction
    · exact .inl ⟨_, ‹_›⟩
    · exact .inr ⟨_, ‹_›⟩
    all_goals contradiction
  · refine h.owner_calls ?_
    simpa [aboutToWake, Function.update_of_ne (Ne.symm ht)] using howner

/-- The test of `queueInLoop` keeps the invariant: it gives up the wakeup only inside an event
handler. -/
theorem Inv.queueTest {owner : T} {s : LoopSystem T F} {t : T} (h : Inv owner s)
    (ht : s.calls t = .queueTest) :
    Inv owner { s with calls := Function.update s.calls t (s.loop.afterQueueTest (t == owner)) } := by
  by_cases hwake : s.loop.afterQueueTest (t == owner) = .queueWake
  · refine h.of_calls fun t' => ?_
    by_cases heq : t' = t
    · subst heq
      simp [aboutToWake, hwake, ht]
    · simp [aboutToWake, heq]
  · have howner : t = owner ∧ s.loop.callingPendingFunctors = false := by
      simpa [EventLoop.afterQueueTest] using hwake
    obtain ⟨rfl, hcalling⟩ := howner
    obtain ⟨active, hpc⟩ | ⟨functors, hpc⟩ := h.owner_calls (.inl ht)
    · exact ⟨by simp [exposed, hpc], by simp [hpc], by simp [hpc], fun _ => .inl ⟨active, hpc⟩⟩
    · rw [h.calling _ _ hpc] at hcalling
      contradiction

/-- A change of place outside `queueInLoop` changes for no thread whether it is about to wake the
loop. -/
theorem aboutToWake_update {s : LoopSystem T F} (loop : EventLoop T F) {t : T} {pc : CallPc}
    (hold : ¬ s.aboutToWake t) (hnew : pc ≠ .queueTest ∧ pc ≠ .queueWake) (t' : T) :
    (LoopSystem.mk loop (Function.update s.calls t pc)).aboutToWake t' ↔ s.aboutToWake t' := by
  by_cases heq : t' = t
  · subst heq
    exact iff_of_false (by simp [aboutToWake, hnew]) hold
  · simp [aboutToWake, heq]

/-- Every step in which the loop thread does not queue outside `loop()` keeps the invariant. -/
theorem Inv.step {owner : T} {s s' : LoopSystem T F} {label : LoopLabel T F} (h : Inv owner s)
    (hinside : queuesInside owner s label) (hstep : s.step owner label = some s') : Inv owner s' := by
  cases step_spec hstep with
  | move hidle hnext => exact h.move hidle hnext
  | queueInLoop hfree => exact h.queueInLoop hfree hinside
  | queueTest ht => exact h.queueTest ht
  | queueWake _ hwake | quitWake _ hwake => exact h.wake _ hwake
  | @quit t hfree =>
    have hidle : s.calls t = .idle := by
      simp only [free, Bool.and_eq_true, beq_iff_eq] at hfree
      exact hfree.1
    obtain ⟨h₁, h₂, h₃, h₄⟩ := h.of_calls (aboutToWake_update s.loop (t := t)
      (by simp [aboutToWake, hidle]) (by simp : CallPc.quitTest ≠ .queueTest ∧ _))
    exact ⟨h₁, h₂, h₃, h₄⟩
  | quitTest ht =>
    refine h.of_calls (aboutToWake_update s.loop (by simp [aboutToWake, ht]) ?_)
    unfold EventLoop.afterQuitTest
    split <;> simp

end LoopSystem

/-- In every run in which the loop thread queues functors only inside `loop()`, whenever it is in
`poll` with a non-empty queue, the eventfd is readable or a thread that queued one of these functors is
about to make it so. -/
theorem noLostWakeup_of_queuesInside (owner : T) (labels : List (LoopLabel T F))
    (h : Along (LoopSystem.step owner) (LoopSystem.queuesInside owner) .constructed labels) :
    Everywhere (LoopSystem.step owner) LoopSystem.NoLostWakeup .constructed labels := by
  refine everywhere_of_along (I := LoopSystem.Inv owner) (fun s hs hpc => ?_)
    (fun s label s' hs hc hstep => hs.step hc hstep) ?_ h
  · exact hs.covered (by simp [LoopSystem.exposed, hpc])
  · exact ⟨fun _ hne => absurd rfl hne, by simp [LoopSystem.constructed, EventLoop.constructed],
      by simp [LoopSystem.constructed, EventLoop.constructed],
      by simp [LoopSystem.constructed, LoopSystem.aboutToWake]⟩

/-- A functor of a foreign thread, queued while the loop thread is in `poll`. -/
theorem noLostWakeup_foreign :
    Along (LoopSystem.step true) (LoopSystem.queuesInside true) LoopSystem.constructed
        [.move .enter, .move .test, .queueInLoop false 7, .queueTest false, .queueWake false] ∧
      Everywhere (LoopSystem.step true) LoopSystem.NoLostWakeup LoopSystem.constructed
        [.move .enter, .move .test, .queueInLoop false 7, .queueTest false, .queueWake false] := by
  have h : Along (LoopSystem.step true) (LoopSystem.queuesInside true) LoopSystem.constructed
      [.move .enter, .move .test, .queueInLoop false 7, .queueTest false, .queueWake false] := by
    decide
  exact ⟨h, noLostWakeup_of_queuesInside true _ h⟩

/-- A functor that the loop thread queues in front of `loop()` is in the queue when `poll` is entered,
and nobody writes a wakeup for it. -/
theorem noLostWakeup_before_loop :
    ¬ Everywhere (LoopSystem.step true) LoopSystem.NoLostWakeup (LoopSystem.constructed (F := ℕ))
      [.queueInLoop true 7, .queueTest true, .move .enter, .move .test] := by
  decide

end CcMuduo
