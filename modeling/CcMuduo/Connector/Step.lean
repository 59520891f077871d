import CcMuduo.Connector.Calls

/-!
# What a step of the connector does

`ConnectorLoop.Step` has one case for everything that a step can be, with the conditions under which it
is taken, and `step_spec` says that these are all. What every step keeps is then a case for each.
-/

namespace CcMuduo

open Foundation

namespace ConnectorLoop

/-- What a step does. -/
inductive Step (s : ConnectorLoop) : ConnectorLabel → ConnectorLoop → Prop where
  | startStore :
    Step s .startStore
      { s with connect_ := true, starts := s.starts + 1, starting := s.starting + 1 }
  | runStart {a : SystemAnswers} (hstarting : 0 < s.starting) (hadmits : s.admits a) :
    Step s (.startRun true a)
      (({ s with starting := s.starting - 1 } : ConnectorLoop).after (startInLoop a))
  | queueStart {a : SystemAnswers} (hstarting : 0 < s.starting) :
    Step s (.startRun false a)
      { s with starting := s.starting - 1, loop := s.loop.enqueue s.starts .startInLoop }
  | stopStore : Step s .stopStore { s with connect_ := false, stopping := s.stopping ++ [s.starts] }
  | stopQueue {count : ℕ} {rest : List ℕ} (hstopping : s.stopping = count :: rest) :
    Step s .stopQueue { s with stopping := rest, loop := s.loop.enqueue count .stopInLoop }
  | restart {a : SystemAnswers} (huser : s.loop.inUserCode = true) (hadmits : s.admits a) :
    Step s (.restart a) (s.restarting.after (startInLoop a))
  | call {a : SystemAnswers} {loop : EventLoop ℕ ConnectorFunctor} {functor : ConnectorFunctor}
      (hadmits : s.admits a) (hnext : s.loop.next .call = some loop)
      (hfunctor : s.nextFunctor = some functor) :
    Step s (.move .call a) (({ s with loop := loop } : ConnectorLoop).after (execute a functor))
  | next {m : EventLoop.Move} {a : SystemAnswers} {loop : EventLoop ℕ ConnectorFunctor}
      (hcall : m ≠ .call) (hhandled : m = .handled → s.active = none)
      (hnext : s.loop.next m = some loop) :
    Step s (.move m a) { s with loop := loop }
  | poll {revents : Option Mask} {loop : EventLoop ℕ ConnectorFunctor} (hreports : s.reports revents)
      (hnext : s.loop.next .poll = some loop) :
    Step s (.poll revents) { s with loop := loop, active := revents }
  | handleEvent {a : SystemAnswers} {revents : Mask} {b : Bool} (hpc : s.loop.pc = .handling b)
      (hactive : s.active = some revents) :
    Step s (.handleEvent a)
      (({ s with active := none } : ConnectorLoop).after (handleEventWithGuard a revents))
  | fire {delayMs : ℕ} {a : SystemAnswers} {b : Bool} (hpc : s.loop.pc = .handling b)
      (hadmits : s.admits a) (hmem : delayMs ∈ s.timers) :
    Step s (.fire delayMs a)
      (({ s with timers := s.timers.erase delayMs } : ConnectorLoop).after (connect a))
  | quit : Step s .quit { s with loop := s.loop.setQuit }

/-- Every step is one of these. -/
theorem step_spec {s s' : ConnectorLoop} {label : ConnectorLabel} (h : s.step label = some s') :
    s.Step label s' := by
  obtain ⟨⟨-, hadmits⟩, hs⟩ := Option.ite_none_right_eq_some.mp h
  cases label with
  | startStore =>
    obtain rfl := Option.some.inj hs
    exact .startStore
  | startRun isInLoopThread a =>
    obtain ⟨hstarting, hs⟩ := Option.ite_none_right_eq_some.mp hs
    obtain rfl := Option.some.inj hs
    cases isInLoopThread with
    | true => exact .runStart hstarting (hadmits a rfl)
    | false => exact .queueStart hstarting
  | stopStore =>
    obtain rfl := Option.some.inj hs
    exact .stopStore
  | stopQueue =>
    unfold stepWith at hs
    dsimp only at hs
    split at hs
    · contradiction
    · rename_i hstopping
      obtain rfl := Option.some.inj hs
      exact .stopQueue hstopping
  | restart a =>
    obtain ⟨huser, hs⟩ := Option.ite_none_right_eq_some.mp hs
    obtain rfl := Option.some.inj hs
    rw [after_restart]
    exact .restart huser (hadmits a rfl)
  | move m a =>
    obtain ⟨hm, hs⟩ := Option.ite_none_left_eq_some.mp hs
    rw [not_or, not_and] at hm
    obtain ⟨loop, hnext, rfl⟩ := Option.map_eq_some_iff.mp hs
    by_cases hcall : m = .call
    · subst hcall
      obtain ⟨functor, hfunctor, -⟩ := functors_call hnext
      obtain ⟨e, he, rfl⟩ := Option.map_eq_some_iff.mp hfunctor
      simp only [if_true, he]
      exact .call (hadmits a rfl) hnext hfunctor
    · simp only [if_neg hcall]
      exact .next hcall (fun hhandled => not_not.mp (hm.2 hhandled)) hnext
  | poll revents =>
    obtain ⟨hreports, hs⟩ := Option.ite_none_right_eq_some.mp hs
    obtain ⟨loop, hnext, rfl⟩ := Option.map_eq_some_iff.mp hs
    exact .poll hreports hnext
  | handleEvent a =>
    unfold stepWith at hs
    dsimp only at hs
    split at hs
    · rename_i hpc hactive
      obtain rfl := Option.some.inj hs
      exact .handleEvent hpc hactive
    · contradiction
  | fire delayMs a =>
    unfold stepWith at hs
    dsimp only at hs
    split at hs
    · rename_i hpc
      obtain ⟨hmem, hs⟩ := Option.ite_none_right_eq_some.mp hs
      obtain rfl := Option.some.inj hs
      exact .fire hpc (hadmits a rfl) hmem
    · contradiction
  | quit =>
    obtain rfl := Option.some.inj hs
    exact .quit

end ConnectorLoop

end CcMuduo
