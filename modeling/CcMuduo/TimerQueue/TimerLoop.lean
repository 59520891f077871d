import CcMuduo.EventLoop.Wakeup
import CcMuduo.TimerQueue

/-!
# The timer queue on its loop

The timer queue together with the loop it runs on and any number of threads that add and cancel
timers. `addTimer` always goes through the functor queue. `cancel` goes through it from a foreign
thread, and runs at once on the loop thread.
-/

namespace CcMuduo

open Foundation

/-- The functors of `addTimer` and `cancel`, and all others. -/
inductive TimerFunctor where
  | insert (timer : Timer)
  | cancel (sequence : ℕ)
  | user
  deriving DecidableEq

/-- Is the functor the insertion of the timer with the sequence? -/
def TimerFunctor.inserts (sequence : ℕ) : TimerFunctor → Bool
  | .insert timer => timer.sequence == sequence
  | .cancel _ | .user => false

/-- A pass of `handleRead` under way: the expired entries, those whose callbacks were not reached yet,
the time of the pass, and whether a callback has been called. -/
structure Batch where
  expired : List Entry
  rest : List Entry
  now : ℤ
  called : Bool
  deriving DecidableEq

/-- A loop with its timer queue. `used` are the sequences of the timers made so far, `cancelled` those
whose cancellation was executed outside a pass, and `late` those whose callback was started after
that. -/
structure TimerLoop (T : Type*) where
  sys : LoopSystem T TimerFunctor
  queue : TimerQueue
  batch : Option Batch
  used : List ℕ
  cancelled : List ℕ
  late : List ℕ

/-- A step of the loop thread, a call of `queueInLoop`, `addTimer`, `cancel` or `quit`, the rest of
such a call, or a step of a pass. -/
inductive TimerLabel (T : Type*) where
  | move (m : EventLoop.Move)
  | queueInLoop (t : T)
  | addTimer (t : T) (timer : Timer)
  | cancel (t : T) (sequence : ℕ)
  | quit (t : T)
  | queueTest (t : T)
  | queueWake (t : T)
  | quitTest (t : T)
  | quitWake (t : T)
  | expire (now : ℤ)
  | runNext
  | reset

namespace TimerLoop

variable {T : Type*} [DecidableEq T]

/-- The loop and its queue behind their constructors. -/
def constructed : TimerLoop T := ⟨.constructed, ⟨[], none⟩, none, [], [], []⟩

variable (owner : T) (s : TimerLoop T)

/-- May the thread run user code? On the loop thread a pass does so only in its callbacks. -/
def inCallback (t : T) : Bool := t != owner || s.batch.all fun b => b.called

/-- Put the rest of the system behind a step of the loop or of a call. -/
def onSystem (label : LoopLabel T TimerFunctor) : Option (TimerLoop T) :=
  (s.sys.step owner label).map fun sys => { s with sys := sys }

/-- The functor of `cancel` on the loop thread. -/
def cancelInLoop (sequence : ℕ) : TimerLoop T :=
  { s with
    queue := s.queue.cancel sequence
    cancelled := if s.batch.isNone then sequence :: s.cancelled else s.cancelled }

/-- Run a functor. -/
def execute : TimerFunctor → TimerLoop T
  | .insert timer => { s with queue := s.queue.insert timer }
  | .cancel sequence => s.cancelInLoop sequence
  | .user => s

/-- One step, where `owner` is the loop's own thread. A timer is made with a sequence of its own, and a
sequence is cancelled only when its timer was made. -/
def step (owner : T) (s : TimerLoop T) : TimerLabel T → Option (TimerLoop T)
  | .move m =>
    if s.batch.isNone then
      (s.onSystem owner (.move m)).map fun s₁ =>
        if m = .call then
          match s.sys.loop.nextFunctor with
          | some (_, functor) => s₁.execute functor
          | none => s₁
        else s₁
    else none
  | .queueInLoop t =>
    if s.inCallback owner t then s.onSystem owner (.queueInLoop t .user) else none
  | .addTimer t timer =>
    if s.inCallback owner t ∧ timer.sequence ∉ s.used then
      (s.onSystem owner (.queueInLoop t (.insert timer))).map fun s₁ =>
        { s₁ with used := timer.sequence :: s₁.used }
    else none
  | .cancel t sequence =>
    if s.inCallback owner t ∧ sequence ∈ s.used then
      if t = owner then if s.sys.free owner t then some (s.cancelInLoop sequence) else none
      else s.onSystem owner (.queueInLoop t (.cancel sequence))
    else none
  | .quit t => if s.inCallback owner t then s.onSystem owner (.quit t) else none
  | .queueTest t => s.onSystem owner (.queueTest t)
  | .queueWake t => s.onSystem owner (.queueWake t)
  | .quitTest t => s.onSystem owner (.quitTest t)
  | .quitWake t => s.onSystem owner (.quitWake t)
  | .expire now =>
    match s.sys.loop.pc with
    | .handling _ =>
      if s.sys.calls owner = .idle ∧ s.batch = none then
        let (expired, queue) := s.queue.getExpired now
        some { s with queue := queue, batch := some ⟨expired, expired, now, false⟩ }
      else none
    | _ => none
  | .runNext =>
    match s.batch with
    | some ⟨expired, e :: rest, now, _⟩ =>
      if s.sys.calls owner = .idle then
        some { s with
          batch := some ⟨expired, rest, now, true⟩
          late := if e.2.callback ∧ e.2.sequence ∈ s.cancelled then e.2.sequence :: s.late
            else s.late }
      else none
    | _ => none
  | .reset =>
    match s.batch with
    | some ⟨expired, [], now, _⟩ =>
      if s.sys.calls owner = .idle then
        some { s with queue := s.queue.reset expired now, batch := none }
      else none
    | _ => none

/-- The functors that wait for the loop thread. -/
def waiting : List TimerFunctor := s.sys.loop.waiting.map Prod.snd

end TimerLoop

end CcMuduo
