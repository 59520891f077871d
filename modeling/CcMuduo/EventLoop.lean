import Mathlib.Algebra.Group.Nat.Defs
import Mathlib.Data.List.Basic
import Mathlib.Order.Nat

/-!
# The event loop

`EventLoop` between its atomic steps. The loop thread is at one place of `loop()`; every thread,
the loop thread in user code included, may be at one place of `queueInLoop` or `quit`. The queue is
guarded by the mutex, so each critical section is one step; the tests and the write of the eventfd
are steps of their own.

What user code does between the steps is left to whoever runs the machine. A queued functor carries
the thread that queued it, for the statements only.
-/

namespace CcMuduo

/-- The place of the loop thread in `loop()` and `doPendingFunctors`. In `handling` the flag says
whether the channel of the eventfd waits in `activeChannels`; in `running` it says whether a functor
has been called and has not returned. -/
inductive LoopPc (T F : Type*) where
  | outside
  | test
  | polling
  | handling (wakeupActive : Bool)
  | swapping
  | running (called : Bool) (functors : List (T × F))
  deriving DecidableEq

/-- The place of a thread in `queueInLoop` or `quit`. -/
inductive CallPc where
  | idle
  | queueTest
  | queueWake
  | quitTest
  | quitWake
  deriving DecidableEq, Repr

/-- The members of `EventLoop` that its threads share, with the place of the loop thread. -/
structure EventLoop (T F : Type*) where
  pc : LoopPc T F
  quit : Bool
  callingPendingFunctors : Bool
  pendingFunctors : List (T × F)
  wakeupCount : ℕ
  deriving DecidableEq

/-- The largest value of an eventfd counter. -/
def eventfdMax : ℕ := 2 ^ 64 - 2

namespace EventLoop

variable {T F : Type*}

/-- The loop its constructor leaves. -/
def constructed : EventLoop T F := ⟨.outside, false, false, [], 0⟩

variable (s : EventLoop T F)

/-- `looping_`: the loop thread is inside `loop()`. -/
def looping : Bool :=
  match s.pc with
  | .outside => false
  | .test | .polling | .handling _ | .swapping | .running _ _ => true

/-- Is user code running on the loop thread: around `loop()`, in an event handler, or in a functor? -/
def inUserCode : Bool :=
  match s.pc with
  | .outside | .handling _ | .running true _ => true
  | .test | .polling | .swapping | .running false _ => false

/-- The critical section of `queueInLoop`. -/
def enqueue (t : T) (cb : F) : EventLoop T F :=
  { s with pendingFunctors := s.pendingFunctors ++ [(t, cb)] }

/-- The test of `queueInLoop` behind its critical section, on the answer of `isInLoopThread`. -/
def afterQueueTest (isInLoopThread : Bool) : CallPc :=
  if !isInLoopThread || s.callingPendingFunctors then .queueWake else .idle

/-- The test of `quit` behind its store, on the answer of `isInLoopThread`. -/
def afterQuitTest (isInLoopThread : Bool) : CallPc :=
  if !isInLoopThread then .quitWake else .idle

/-- The store of `quit`. -/
def setQuit : EventLoop T F := { s with quit := true }

/-- `wakeup`: a full counter refuses the write, and the process ends. -/
def wakeup : Option (EventLoop T F) :=
  if s.wakeupCount < eventfdMax then some { s with wakeupCount := s.wakeupCount + 1 } else none

/-- `handleRead`: reading the eventfd empties it. -/
def handleRead : EventLoop T F := { s with wakeupCount := 0 }

/-- A step of the loop thread between its pieces of user code. -/
inductive Move where
  | enter
  | test
  | poll
  | handleRead
  | handled
  | swap
  | call
  | finish
  deriving DecidableEq, Repr

/-- The steps of `loop()` and `doPendingFunctors`. `poll` returns, for whatever reason, and finds the
channel of the eventfd active exactly when the counter is positive. Behind a full list of `epoll_wait` it
may be missing there. That does no harm: the counter stays positive, so the next `poll` returns at once,
and the functors of this iteration are taken whether or not `handleRead` has run. -/
def next (s : EventLoop T F) : Move → Option (EventLoop T F)
  | .enter =>
    match s.pc with
    | .outside => some { s with quit := false, pc := .test }
    | _ => none
  | .test =>
    match s.pc with
    | .test => some { s with pc := if s.quit then .outside else .polling }
    | _ => none
  | .poll =>
    match s.pc with
    | .polling => some { s with pc := .handling (decide (0 < s.wakeupCount)) }
    | _ => none
  | .handleRead =>
    match s.pc with
    | .handling true => some { s.handleRead with pc := .handling false }
    | _ => none
  | .handled =>
    match s.pc with
    | .handling false => some { s with callingPendingFunctors := true, pc := .swapping }
    | _ => none
  | .swap =>
    match s.pc with
    | .swapping => some { s with pendingFunctors := [], pc := .running false s.pendingFunctors }
    | _ => none
  | .call =>
    match s.pc with
    | .running _ (_ :: rest) => some { s with pc := .running true rest }
    | _ => none
  | .finish =>
    match s.pc with
    | .running _ [] => some { s with callingPendingFunctors := false, pc := .test }
    | _ => none

/-- The functors that are queued and not yet called, in the order of their calls. -/
def waiting : List (T × F) :=
  match s.pc with
  | .running _ functors => functors ++ s.pendingFunctors
  | .outside | .test | .polling | .handling _ | .swapping => s.pendingFunctors

/-- The functor that the next `call` of the loop thread runs. -/
def nextFunctor : Option (T × F) :=
  match s.pc with
  | .running _ (e :: _) => some e
  | _ => none

variable {s} {s' : EventLoop T F}

/-- Where each step of the loop thread starts, and everything it changes. -/
theorem next_spec {m : Move} (h : s.next m = some s') :
    match m with
    | .enter => s.pc = .outside ∧ s' = { s with quit := false, pc := .test }
    | .test => s.pc = .test ∧ s' = { s with pc := if s.quit then .outside else .polling }
    | .poll => s.pc = .polling ∧ s' = { s with pc := .handling (decide (0 < s.wakeupCount)) }
    | .handleRead => s.pc = .handling true ∧ s' = { s with wakeupCount := 0, pc := .handling false }
    | .handled =>
      s.pc = .handling false ∧ s' = { s with callingPendingFunctors := true, pc := .swapping }
    | .swap =>
      s.pc = .swapping ∧
        s' = { s with pendingFunctors := [], pc := .running false s.pendingFunctors }
    | .call => ∃ called e rest, s.pc = .running called (e :: rest) ∧
        s' = { s with pc := .running true rest }
    | .finish => ∃ called, s.pc = .running called [] ∧
        s' = { s with callingPendingFunctors := false, pc := .test } := by
  cases m with
  | enter | test | poll | handleRead | handled | swap =>
    unfold next at h
    dsimp only at h ⊢
    split at h
    · exact ⟨‹_›, (Option.some.inj h).symm⟩
    · contradiction
  | call =>
    unfold next at h
    dsimp only at h ⊢
    split at h
    · exact ⟨_, _, _, ‹_›, (Option.some.inj h).symm⟩
    · contradiction
  | finish =>
    unfold next at h
    dsimp only at h ⊢
    split at h
    · exact ⟨_, ‹_›, (Option.some.inj h).symm⟩
    · contradiction

/-- The steps of the loop thread only call waiting functors, in order. -/
theorem waiting_next {m : Move} (h : s.next m = some s') :
    if m = .call then ∃ e, s.nextFunctor = some e ∧ s.waiting = e :: s'.waiting
    else s'.waiting = s.waiting := by
  have hspec := next_spec h
  cases m with
  | enter | poll | handleRead | handled =>
    obtain ⟨hpc, rfl⟩ := hspec
    simp [waiting, hpc]
  | test =>
    obtain ⟨hpc, rfl⟩ := hspec
    cases hquit : s.quit <;> simp [waiting, hpc]
  | swap =>
    obtain ⟨hpc, rfl⟩ := hspec
    simp [waiting, hpc]
  | call =>
    obtain ⟨called, e, rest, hpc, rfl⟩ := hspec
    exact ⟨e, by simp [nextFunctor, hpc], by simp [waiting, hpc]⟩
  | finish =>
    obtain ⟨called, hpc, rfl⟩ := hspec
    simp [waiting, hpc]

/-- The steps of the loop thread queue nothing. -/
theorem mem_waiting_of_next {m : Move} {e : T × F} (h : s.next m = some s') (he : e ∈ s'.waiting) :
    e ∈ s.waiting := by
  have hwaiting := waiting_next h
  by_cases hcall : m = .call
  · rw [if_pos hcall] at hwaiting
    obtain ⟨head, -, hwaiting⟩ := hwaiting
    exact hwaiting ▸ List.mem_cons_of_mem _ he
  · rw [if_neg hcall] at hwaiting
    exact hwaiting ▸ he

/-- The next functor waits. -/
theorem mem_waiting_of_nextFunctor {e : T × F} (h : s.nextFunctor = some e) : e ∈ s.waiting := by
  unfold nextFunctor at h
  split at h
  · rename_i hpc
    obtain rfl := Option.some.inj h
    simp [waiting, hpc]
  · contradiction

/-- A queued functor waits behind all others. -/
theorem waiting_enqueue (s : EventLoop T F) (t : T) (cb : F) :
    (s.enqueue t cb).waiting = s.waiting ++ [(t, cb)] := by
  unfold waiting enqueue
  cases s.pc <;> simp

/-- A completed `wakeup` has counted one more, and nothing else has changed. -/
theorem wakeup_spec (h : s.wakeup = some s') :
    s' = { s with wakeupCount := s.wakeupCount + 1 } := by
  unfold wakeup at h
  split at h
  · exact (Option.some.inj h).symm
  · contradiction

end EventLoop

end CcMuduo
