import CcMuduo.TimerQueue.TimerLoop

/-!
# What a step of the timers on their loop does

`TimerLoop.Step` has one case for everything that a step can be, and `step_spec` says that these are
all. Of the loop itself the cases keep where the loop thread is and which functors wait.
-/

namespace CcMuduo

open Foundation

variable {T : Type*} [DecidableEq T]

/-- The steps that touch no timer: those of the loop thread except a call, and those of a call of
`queueInLoop` behind its critical section or of `quit`. -/
def TimerLabel.quiet : TimerLabel T → Bool
  | .move m => m != .call
  | .quit _ | .queueTest _ | .queueWake _ | .quitTest _ | .quitWake _ => true
  | .queueInLoop _ | .addTimer _ _ | .cancel _ _ | .expire _ | .runNext | .reset => false

namespace TimerLoop

/-- What a step does, where `owner` is the loop's own thread. -/
inductive Step (owner : T) (s : TimerLoop T) : TimerLabel T → TimerLoop T → Prop where
  | quiet {label : TimerLabel T} {sys : LoopSystem T TimerFunctor} (hquiet : label.quiet = true)
      (hpc : s.batch = none ∨ sys.loop.pc = s.sys.loop.pc)
      (hwaiting : waiting { s with sys := sys } = s.waiting) :
    Step owner s label { s with sys := sys }
  | call {sys : LoopSystem T TimerFunctor} {functor : TimerFunctor} (hbatch : s.batch = none)
      (hwaiting : s.waiting = functor :: waiting { s with sys := sys }) :
    Step owner s (.move .call) (execute { s with sys := sys } functor)
  | queueInLoop {t : T} {sys : LoopSystem T TimerFunctor} (hpc : sys.loop.pc = s.sys.loop.pc)
      (hwaiting : waiting { s with sys := sys } = s.waiting ++ [.user]) :
    Step owner s (.queueInLoop t) { s with sys := sys }
  | addTimer {t : T} {timer : Timer} {sys : LoopSystem T TimerFunctor}
      (hpc : sys.loop.pc = s.sys.loop.pc)
      (hwaiting : waiting { s with sys := sys } = s.waiting ++ [.insert timer])
      (hfresh : timer.sequence ∉ s.used) :
    Step owner s (.addTimer t timer) { s with sys := sys, used := timer.sequence :: s.used }
  | queueCancel {t : T} {sequence : ℕ} {sys : LoopSystem T TimerFunctor}
      (hpc : sys.loop.pc = s.sys.loop.pc)
      (hwaiting : waiting { s with sys := sys } = s.waiting ++ [.cancel sequence])
      (hused : sequence ∈ s.used) :
    Step owner s (.cancel t sequence) { s with sys := sys }
  | cancel {sequence : ℕ} (hused : sequence ∈ s.used) :
    Step owner s (.cancel owner sequence) (s.cancelInLoop sequence)
  | expire {now : ℤ} {active : Bool} (hpc : s.sys.loop.pc = .handling active)
      (hbatch : s.batch = none) :
    Step owner s (.expire now) { s with
      queue := (s.queue.getExpired now).2
      batch := some ⟨(s.queue.getExpired now).1, (s.queue.getExpired now).1, now, false⟩ }
  | runNext {expired rest : List Entry} {e : Entry} {now : ℤ} {called : Bool}
      (hbatch : s.batch = some ⟨expired, e :: rest, now, called⟩) :
    Step owner s .runNext { s with
      batch := some ⟨expired, rest, now, true⟩
      late := if e.2.callback ∧ e.2.sequence ∈ s.cancelled then e.2.sequence :: s.late else s.late }
  | reset {expired : List Entry} {now : ℤ} {called : Bool}
      (hbatch : s.batch = some ⟨expired, [], now, called⟩) :
    Step owner s .reset { s with queue := s.queue.reset expired now, batch := none }

variable {owner : T} {s s' : TimerLoop T}

/-- A step of a call behind the critical section of `queueInLoop`, or of `quit`, moves neither the loop
thread nor the waiting functors. -/
theorem call_spec {label : LoopLabel T TimerFunctor} {sys : LoopSystem T TimerFunctor}
    (hlabel : match label with | .move _ | .queueInLoop _ _ => False | _ => True)
    (hs : s.sys.step owner label = some sys) :
    sys.loop.pc = s.sys.loop.pc ∧ waiting { s with sys := sys } = s.waiting := by
  cases LoopSystem.step_spec hs with
  | move | queueInLoop => contradiction
  | queueTest | quit | quitTest => exact ⟨rfl, rfl⟩
  | queueWake _ hwake | quitWake _ hwake =>
    rw [EventLoop.wakeup_spec hwake]
    exact ⟨rfl, rfl⟩

/-- Queueing a functor puts it behind the waiting ones. -/
theorem queueInLoop_spec {sys : LoopSystem T TimerFunctor} {t : T} {functor : TimerFunctor}
    (hs : s.sys.step owner (.queueInLoop t functor) = some sys) :
    sys.loop.pc = s.sys.loop.pc ∧ waiting { s with sys := sys } = s.waiting ++ [functor] := by
  cases LoopSystem.step_spec hs
  exact ⟨rfl, by simp [EventLoop.waiting_enqueue, waiting]⟩

/-- A step of the loop thread touches timers only when it calls a functor. -/
theorem move_spec {m : EventLoop.Move} (h : s.step owner (.move m) = some s') :
    s.Step owner (.move m) s' := by
  obtain ⟨hbatch, hs⟩ := Option.ite_none_right_eq_some.mp h
  rw [Option.isNone_iff_eq_none] at hbatch
  obtain ⟨s₁, hs₁, rfl⟩ := Option.map_eq_some_iff.mp hs
  obtain ⟨sys, hsys, rfl⟩ := Option.map_eq_some_iff.mp hs₁
  obtain ⟨-, hloop⟩ := LoopSystem.step_spec hsys
  have hnext := EventLoop.waiting_next hloop
  by_cases hcall : m = .call
  · subst hcall
    rw [if_pos rfl] at hnext
    obtain ⟨⟨t, functor⟩, hfunctor, hwaiting⟩ := hnext
    simp only [if_true, hfunctor]
    exact .call hbatch (congrArg (List.map Prod.snd) hwaiting)
  · rw [if_neg hcall] at hnext
    simp only [if_neg hcall]
    exact .quiet (by simpa [TimerLabel.quiet] using hcall) (.inl hbatch)
      (congrArg (List.map Prod.snd) hnext)

/-- A step of a call behind its critical section is quiet. -/
theorem onSystem_spec {label : LoopLabel T TimerFunctor} {timerLabel : TimerLabel T}
    (hlabel : match label with | .move _ | .queueInLoop _ _ => False | _ => True)
    (hquiet : timerLabel.quiet = true) (h : s.onSystem owner label = some s') :
    s.Step owner timerLabel s' := by
  obtain ⟨sys, hsys, rfl⟩ := Option.map_eq_some_iff.mp h
  obtain ⟨hpc, hwaiting⟩ := call_spec hlabel hsys
  exact .quiet hquiet (.inr hpc) hwaiting

/-- Every step is one of these. -/
theorem step_spec {label : TimerLabel T} (h : s.step owner label = some s') :
    s.Step owner label s' := by
  cases label with
  | move m => exact move_spec h
  | queueInLoop t =>
    obtain ⟨-, hs⟩ := Option.ite_none_right_eq_some.mp h
    obtain ⟨sys, hsys, rfl⟩ := Option.map_eq_some_iff.mp hs
    obtain ⟨hpc, hwaiting⟩ := queueInLoop_spec hsys
    exact .queueInLoop hpc hwaiting
  | addTimer t timer =>
    obtain ⟨⟨-, hfresh⟩, hs⟩ := Option.ite_none_right_eq_some.mp h
    obtain ⟨s₁, hs₁, rfl⟩ := Option.map_eq_some_iff.mp hs
    obtain ⟨sys, hsys, rfl⟩ := Option.map_eq_some_iff.mp hs₁
    obtain ⟨hpc, hwaiting⟩ := queueInLoop_spec hsys
    exact .addTimer hpc hwaiting hfresh
  | cancel t sequence =>
    obtain ⟨⟨-, hused⟩, hs⟩ := Option.ite_none_right_eq_some.mp h
    by_cases ht : t = owner
    · subst ht
      rw [if_pos rfl] at hs
      obtain ⟨-, hs⟩ := Option.ite_none_right_eq_some.mp hs
      obtain rfl := Option.some.inj hs
      exact .cancel hused
    · rw [if_neg ht] at hs
      obtain ⟨sys, hsys, rfl⟩ := Option.map_eq_some_iff.mp hs
      obtain ⟨hpc, hwaiting⟩ := queueInLoop_spec hsys
      exact .queueCancel hpc hwaiting hused
  | quit t =>
    obtain ⟨-, hs⟩ := Option.ite_none_right_eq_some.mp h
    exact onSystem_spec trivial rfl hs
  | queueTest t | queueWake t | quitTest t | quitWake t => exact onSystem_spec trivial rfl h
  | expire now =>
    unfold TimerLoop.step at h
    dsimp only at h
    split at h
    · rename_i active hpc
      obtain ⟨⟨-, hbatch⟩, hs⟩ := Option.ite_none_right_eq_some.mp h
      obtain rfl := Option.some.inj hs
      exact .expire hpc hbatch
    · contradiction
  | runNext =>
    unfold TimerLoop.step at h
    dsimp only at h
    split at h
    · rename_i hbatch
      obtain ⟨-, hs⟩ := Option.ite_none_right_eq_some.mp h
      obtain rfl := Option.some.inj hs
      exact .runNext hbatch
    · contradiction
  | reset =>
    unfold TimerLoop.step at h
    dsimp only at h
    split at h
    · rename_i hbatch
      obtain ⟨-, hs⟩ := Option.ite_none_right_eq_some.mp h
      obtain rfl := Option.some.inj hs
      exact .reset hbatch
    · contradiction

/-- The loop thread is in a handler while a pass is under way. -/
def InHandler (s : TimerLoop T) : Prop :=
  s.batch ≠ none → ∃ active, s.sys.loop.pc = .handling active

/-- Every step keeps the loop thread in its handler while a pass is under way. -/
theorem InHandler.step (h : s.InHandler) {label : TimerLabel T}
    (hs : s.step owner label = some s') : s'.InHandler := by
  cases step_spec hs with
  | quiet _ hpc =>
    intro hbatch
    rw [hpc.resolve_left hbatch]
    exact h hbatch
  | @call sys functor hbatch =>
    have hnone : (execute { s with sys := sys } functor).batch = none := by
      cases functor <;> exact hbatch
    exact fun hne => absurd hnone hne
  | queueInLoop hpc | addTimer hpc | queueCancel hpc =>
    intro hbatch
    rw [hpc]
    exact h hbatch
  | cancel => exact h
  | @expire _ active hpc => exact fun _ => ⟨active, hpc⟩
  | runNext hbatch => exact fun _ => h (by simp [hbatch])
  | reset => exact fun hne => absurd rfl hne

end TimerLoop

end CcMuduo
