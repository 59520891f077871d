import CcMuduo.TimerQueue.Step

/-!
# What a step does to the timers

The part of a `TimerLoop` that holds timers: the waiting functors, the queue, and the pass under way.
`TimerView.Step` says everything a step can do to it, and `step_view` that this is all.
-/

namespace CcMuduo

open Foundation

variable {T : Type*} [DecidableEq T]

/-- The parts of a loop that hold timers, and the sequences made so far. -/
structure TimerView where
  queue : TimerQueue
  batch : Option Batch
  waiting : List TimerFunctor
  used : List ℕ

/-- A pass does not end with a repeating timer whose new expiration, an interval behind the reading of the
pass, is beyond the ticks of the clock. -/
def TimerView.RestartsFit (v : TimerView) : TimerLabel T → Prop
  | .reset => ∀ b ∈ v.batch, ∀ e ∈ b.expired, e.2.repeats = true → IsSigned 64 (b.now + e.2.interval)
  | _ => True

omit [DecidableEq T] in
instance (v : TimerView) (label : TimerLabel T) : Decidable (v.RestartsFit label) := by
  cases label <;> unfold TimerView.RestartsFit <;> infer_instance

/-- What a functor does to the queue. -/
def TimerQueue.execute (q : TimerQueue) : TimerFunctor → TimerQueue
  | .insert timer => q.insert timer
  | .cancel sequence => q.cancel sequence
  | .user => q

/-- What a step does to the timers. -/
inductive TimerView.Step : TimerView → TimerLabel T → TimerView → Prop where
  | quiet {v : TimerView} {label : TimerLabel T} (h : label.quiet = true) : Step v label v
  | call {queue : TimerQueue} {functor : TimerFunctor} {rest : List TimerFunctor} {used : List ℕ} :
    Step ⟨queue, none, functor :: rest, used⟩ (.move .call) ⟨queue.execute functor, none, rest, used⟩
  | queueInLoop {v : TimerView} {t : T} :
    Step v (.queueInLoop t) { v with waiting := v.waiting ++ [.user] }
  | addTimer {v : TimerView} {t : T} {timer : Timer} (h : timer.sequence ∉ v.used) :
    Step v (.addTimer t timer)
      { v with waiting := v.waiting ++ [.insert timer], used := timer.sequence :: v.used }
  | queueCancel {v : TimerView} {t : T} {sequence : ℕ} (h : sequence ∈ v.used) :
    Step v (.cancel t sequence) { v with waiting := v.waiting ++ [.cancel sequence] }
  | cancel {v : TimerView} {t : T} {sequence : ℕ} (h : sequence ∈ v.used) :
    Step v (.cancel t sequence) { v with queue := v.queue.cancel sequence }
  | expire {queue : TimerQueue} {waiting : List TimerFunctor} {used : List ℕ} {now : ℤ} :
    Step ⟨queue, none, waiting, used⟩ (.expire now)
      ⟨(queue.getExpired now).2,
        some ⟨(queue.getExpired now).1, (queue.getExpired now).1, now, false⟩, waiting, used⟩
  | runNext {queue : TimerQueue} {waiting : List TimerFunctor} {used : List ℕ} {now : ℤ}
      {expired rest : List Entry} {e : Entry} {called : Bool} :
    Step ⟨queue, some ⟨expired, e :: rest, now, called⟩, waiting, used⟩ .runNext
      ⟨queue, some ⟨expired, rest, now, true⟩, waiting, used⟩
  | reset {queue : TimerQueue} {waiting : List TimerFunctor} {used : List ℕ} {now : ℤ}
      {expired : List Entry} {called : Bool} :
    Step ⟨queue, some ⟨expired, [], now, called⟩, waiting, used⟩ .reset
      ⟨queue.reset expired now, none, waiting, used⟩

namespace TimerLoop

/-- The timers of a loop. -/
def view (s : TimerLoop T) : TimerView := ⟨s.queue, s.batch, s.waiting, s.used⟩

variable {owner : T} {s s' : TimerLoop T}

omit [DecidableEq T] in
/-- The timers behind a step of the loop that has left the functors waiting. -/
theorem view_of_waiting {sys : LoopSystem T TimerFunctor} {functors : List TimerFunctor}
    (h : waiting { s with sys := sys } = functors) (used : List ℕ) :
    view { s with sys := sys, used := used } = ⟨s.queue, s.batch, functors, used⟩ := by
  rw [← h]
  rfl

/-- What a step does to the timers, for every step. -/
theorem step_view {label : TimerLabel T} (hs : s.step owner label = some s') :
    s.view.Step label s'.view := by
  cases step_spec hs with
  | quiet hquiet _ hwaiting => exact view_of_waiting hwaiting s.used ▸ .quiet hquiet
  | @call sys functor hbatch hwaiting =>
    rw [view, hbatch, hwaiting]
    cases functor <;>
      simpa only [execute, cancelInLoop, view, hbatch, waiting, TimerQueue.execute] using
        TimerView.Step.call
  | queueInLoop _ hwaiting => exact view_of_waiting hwaiting s.used ▸ .queueInLoop
  | @addTimer _ timer _ _ hwaiting hfresh =>
    exact view_of_waiting hwaiting (timer.sequence :: s.used) ▸ .addTimer hfresh
  | queueCancel _ hwaiting hused => exact view_of_waiting hwaiting s.used ▸ .queueCancel hused
  | cancel hused => exact .cancel hused
  | expire _ hbatch =>
    rw [view, hbatch]
    exact .expire
  | runNext hbatch =>
    rw [view, hbatch]
    exact TimerView.Step.runNext
  | reset hbatch =>
    rw [view, hbatch]
    exact .reset

end TimerLoop

end CcMuduo
