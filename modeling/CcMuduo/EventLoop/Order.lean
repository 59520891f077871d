import CcMuduo.EventLoop.Wakeup

/-!
# The order of the pending functors

The loop and its threads with a history: what was queued, in the order in which the mutex was taken,
what was run, and for each `doPendingFunctors` the functors present at its swap and those it called.

Nothing is lost, doubled or overtaken: at every point the functors run so far, the rest of the batch and
the queue make up what was queued. A functor queued by a functor of the batch is behind the swap, so it
waits for the next batch.
-/

namespace CcMuduo

open Foundation

variable {T F : Type*} [DecidableEq T]

/-- One `doPendingFunctors`: the functors present at its swap, and those it has called. -/
structure FunctorBatch (T F : Type*) where
  present : List (T × F)
  called : List (T × F)
  deriving DecidableEq

/-- A loop with its history. `ran` are the functors whose call has begun, `batch` the current
`doPendingFunctors`, `finished` the earlier ones. -/
structure LoopHistory (T F : Type*) where
  sys : LoopSystem T F
  enqueued : List (T × F)
  ran : List (T × F)
  batch : Option (FunctorBatch T F)
  finished : List (FunctorBatch T F)

/-- The functors of the batch that are not called yet. -/
def EventLoop.rest (s : EventLoop T F) : List (T × F) :=
  match s.pc with
  | .running _ functors => functors
  | .outside | .test | .polling | .handling _ | .swapping => []

/-- Is the loop thread running a batch? -/
def EventLoop.inBatch (s : EventLoop T F) : Bool :=
  match s.pc with
  | .running _ _ => true
  | .outside | .test | .polling | .handling _ | .swapping => false

omit [DecidableEq T] in
/-- Outside a batch there is no rest. -/
theorem EventLoop.rest_of_not_inBatch {s : EventLoop T F} (h : s.inBatch = false) : s.rest = [] := by
  unfold inBatch at h
  unfold rest
  cases hpc : s.pc <;> simp_all

omit [DecidableEq T] in
/-- What waits is the rest of the batch and the queue. -/
theorem EventLoop.waiting_eq (s : EventLoop T F) : s.waiting = s.rest ++ s.pendingFunctors := by
  unfold waiting rest
  cases s.pc <;> rfl

namespace LoopHistory

/-- The loop behind its constructor. -/
def constructed : LoopHistory T F := ⟨.constructed, [], [], none, []⟩

variable (h : LoopHistory T F)

/-- Keep the history of a step. -/
def record (sys : LoopSystem T F) : LoopLabel T F → LoopHistory T F
  | .queueInLoop t cb => { h with sys := sys, enqueued := h.enqueued ++ [(t, cb)] }
  | .move .swap => { h with sys := sys, batch := some ⟨h.sys.loop.pendingFunctors, []⟩ }
  | .move .call =>
    let next := h.sys.loop.nextFunctor.toList
    { h with
      sys := sys
      ran := h.ran ++ next
      batch := h.batch.map fun b => { b with called := b.called ++ next } }
  | .move .finish => { h with sys := sys, batch := none, finished := h.finished ++ h.batch.toList }
  | _ => { h with sys := sys }

omit [DecidableEq T] in
/-- The history follows the system. -/
@[simp] theorem record_sys (sys : LoopSystem T F) (label : LoopLabel T F) :
    (h.record sys label).sys = sys := by
  cases label with
  | move m => cases m <;> rfl
  | queueInLoop | queueTest | queueWake | quit | quitTest | quitWake => rfl

/-- One step, where `owner` is the loop's own thread. -/
def step (owner : T) (h : LoopHistory T F) (label : LoopLabel T F) : Option (LoopHistory T F) :=
  (h.sys.step owner label).map fun sys => h.record sys label

/-- Exactly once and in order, and each batch runs what its swap took. -/
structure InOrder : Prop where
  order : h.ran ++ h.sys.loop.rest ++ h.sys.loop.pendingFunctors = h.enqueued
  batch : ∀ b ∈ h.batch, b.called ++ h.sys.loop.rest = b.present
  finished : ∀ b ∈ h.finished, b.called = b.present

/-- What every step keeps: the order, and a batch is under way exactly in `doPendingFunctors`. -/
structure Inv : Prop where
  waiting : h.ran ++ h.sys.loop.waiting = h.enqueued
  running : h.batch.isSome = h.sys.loop.inBatch
  batch : ∀ b ∈ h.batch, b.called ++ h.sys.loop.rest = b.present
  finished : ∀ b ∈ h.finished, b.called = b.present

variable {h}

omit [DecidableEq T] in
/-- The invariant says that everything is in order. -/
theorem Inv.inOrder (hinv : h.Inv) : h.InOrder := by
  refine ⟨?_, hinv.batch, hinv.finished⟩
  rw [List.append_assoc, ← EventLoop.waiting_eq]
  exact hinv.waiting

omit [DecidableEq T] in
/-- A step that leaves the rest of the batch and the queue alone keeps the invariant. -/
theorem Inv.of_loop (hinv : h.Inv) {sys : LoopSystem T F} (hrest : sys.loop.rest = h.sys.loop.rest)
    (hbatch : sys.loop.inBatch = h.sys.loop.inBatch)
    (hpending : sys.loop.pendingFunctors = h.sys.loop.pendingFunctors) :
    Inv { h with sys := sys } := by
  refine ⟨?_, hinv.running.trans hbatch.symm, ?_, hinv.finished⟩
  · rw [EventLoop.waiting_eq, hrest, hpending, ← EventLoop.waiting_eq]
    exact hinv.waiting
  · rw [hrest]
    exact hinv.batch

omit [DecidableEq T] in
/-- A step between two places outside a batch keeps the invariant. -/
theorem Inv.of_between (hinv : h.Inv) {sys : LoopSystem T F} (hold : h.sys.loop.inBatch = false)
    (hnew : sys.loop.inBatch = false)
    (hpending : sys.loop.pendingFunctors = h.sys.loop.pendingFunctors) :
    Inv { h with sys := sys } :=
  hinv.of_loop (by rw [EventLoop.rest_of_not_inBatch hold, EventLoop.rest_of_not_inBatch hnew])
    (hnew.trans hold.symm) hpending

omit [DecidableEq T] in
/-- A step of the loop thread keeps the invariant. -/
theorem Inv.move (hinv : h.Inv) {m : EventLoop.Move} {loop : EventLoop T F}
    (hm : h.sys.loop.next m = some loop) :
    (h.record { h.sys with loop := loop } (.move m)).Inv := by
  have hspec := EventLoop.next_spec hm
  have hwaiting := EventLoop.waiting_next hm
  cases m with
  | enter | poll | handleRead | handled =>
    obtain ⟨hpc, rfl⟩ := hspec
    exact hinv.of_between (by simp [EventLoop.inBatch, hpc]) rfl rfl
  | test =>
    obtain ⟨hpc, rfl⟩ := hspec
    refine hinv.of_between (by simp [EventLoop.inBatch, hpc]) ?_ rfl
    cases hquit : h.sys.loop.quit <;> simp [EventLoop.inBatch]
  | swap =>
    obtain ⟨hpc, rfl⟩ := hspec
    refine ⟨?_, rfl, ?_, hinv.finished⟩
    · rw [record, hwaiting]
      exact hinv.waiting
    · intro b hb
      obtain rfl := Option.some.inj hb
      rfl
  | call =>
    obtain ⟨called, e, rest, hpc, rfl⟩ := hspec
    have hnext : h.sys.loop.nextFunctor = some e := by simp [EventLoop.nextFunctor, hpc]
    have hrest : h.sys.loop.rest = e :: rest := by simp [EventLoop.rest, hpc]
    refine ⟨?_, ?_, ?_, hinv.finished⟩
    · have hold := hinv.waiting
      simp only [EventLoop.waiting, hpc] at hold
      simpa [record, hnext, EventLoop.waiting] using hold
    · have hrunning := hinv.running
      simpa [record, EventLoop.inBatch, hpc] using hrunning
    · intro b hb
      obtain ⟨b₀, hb₀, rfl⟩ := Option.map_eq_some_iff.mp hb
      have hold := hinv.batch b₀ hb₀
      rw [hrest] at hold
      simpa [hnext, record, EventLoop.rest] using hold
  | finish =>
    obtain ⟨called, hpc, rfl⟩ := hspec
    have hrest : h.sys.loop.rest = [] := by simp [EventLoop.rest, hpc]
    refine ⟨?_, rfl, by simp [record], fun b hb => ?_⟩
    · rw [record, hwaiting]
      exact hinv.waiting
    · rcases List.mem_append.mp hb with hold | hnew
      · exact hinv.finished b hold
      · have hsame := hinv.batch b (Option.mem_toList.mp hnew)
        rwa [hrest, List.append_nil] at hsame

/-- Every step keeps the invariant. -/
theorem Inv.step {owner : T} {h' : LoopHistory T F} {label : LoopLabel T F} (hinv : h.Inv)
    (hstep : h.step owner label = some h') : h'.Inv := by
  obtain ⟨sys, hsys, rfl⟩ := Option.map_eq_some_iff.mp hstep
  cases LoopSystem.step_spec hsys with
  | move _ hnext => exact hinv.move hnext
  | queueInLoop =>
    refine ⟨?_, hinv.running, hinv.batch, hinv.finished⟩
    rw [record, EventLoop.waiting_enqueue, ← List.append_assoc, hinv.waiting]
  | queueTest | quit | quitTest => exact hinv.of_loop rfl rfl rfl
  | queueWake _ hwake | quitWake _ hwake =>
    obtain rfl := EventLoop.wakeup_spec hwake
    exact hinv.of_loop rfl rfl rfl

end LoopHistory

/-- In every run the functors run so far, the rest of the current batch and the queue are what was
queued, in mutex order, and each `doPendingFunctors` runs exactly the functors present at its swap. -/
theorem pendingFunctors_inOrder (owner : T) (labels : List (LoopLabel T F)) :
    Everywhere (LoopHistory.step owner) LoopHistory.InOrder .constructed labels := by
  refine everywhere_of_invariant (I := LoopHistory.Inv) (fun _ hinv => hinv.inOrder)
    (fun _ _ _ hinv hstep => hinv.step hstep) ?_ labels
  exact ⟨rfl, rfl, by simp [LoopHistory.constructed], by simp [LoopHistory.constructed]⟩

end CcMuduo
