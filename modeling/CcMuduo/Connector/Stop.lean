import CcMuduo.Connector.Frame

/-!
# Stopping the connector

What `stop` promises: once its `stopInLoop` has run, no attempt is made until the next `start` or
`restart`. `stopInLoop` schedules a retry itself when it ends an attempt, and it cancels none that is
pending; the timer of a retry calls `connect` whatever `connect_` says. So the promise is kept exactly
as far as `stopInLoop` finds no attempt in progress and no retry outstanding.
-/

namespace CcMuduo

open Foundation

/-- How often `connect` was called. -/
def attempts (log : List SocketAction) : ℕ := log.count .attempt

/-- Does the step begin a `start` or `restart`? -/
def ConnectorLabel.starts : ConnectorLabel → Bool
  | .startStore | .restart _ => true
  | .startRun _ _ | .stopStore | .stopQueue | .move _ _ | .poll _ | .handleEvent _ | .fire _ _
  | .quit => false

/-- Does the step run the `stopInLoop` of a `stop` with no `start` or `restart` behind it? -/
def ConnectorLoop.stops (s : ConnectorLoop) : ConnectorLabel → Bool
  | .move .call _ => s.loop.nextFunctor == some (s.starts, .stopInLoop)
  | _ => false

/-- A connector with its history. `stopped` says that it was stopped and not started since, and `late`
that an attempt was made in such a state. -/
structure StopHistory where
  connector : ConnectorLoop
  stopped : Bool
  late : Bool

namespace StopHistory

/-- The connector behind its constructor. -/
def constructed : StopHistory := ⟨.constructed, false, false⟩

/-- One step. -/
def step (h : StopHistory) (label : ConnectorLabel) : Option StopHistory :=
  (h.connector.step label).map fun connector =>
    { connector := connector
      stopped := !label.starts && (h.stopped || h.connector.stops label)
      late := h.late ||
        (h.stopped && !label.starts && attempts connector.log != attempts h.connector.log) }

/-- No attempt was made in a stopped connector. -/
def StaysStopped (h : StopHistory) : Prop := h.late = false

instance : DecidablePred StaysStopped := fun h => inferInstanceAs (Decidable (h.late = false))

/-- `stopInLoop` finds no attempt in progress and no retry outstanding. -/
def StopsAtRest (h : StopHistory) (label : ConnectorLabel) : Prop :=
  h.connector.stops label = true → h.connector.state ≠ .kConnecting ∧ h.connector.retries = 0

instance (h : StopHistory) (label : ConnectorLabel) : Decidable (h.StopsAtRest label) :=
  inferInstanceAs (Decidable (h.connector.stops label = true →
    h.connector.state ≠ .kConnecting ∧ h.connector.retries = 0))

end StopHistory

namespace ConnectorLoop

/-- Nothing is left that could call `connect`. -/
structure AtRest (s : ConnectorLoop) : Prop where
  connect : s.connect_ = false
  state : s.state ≠ .kConnecting
  retries : s.retries = 0

/-- The calls of `stop` with no `start` or `restart` behind them have left `connect_` false. -/
structure StopsKnown (s : ConnectorLoop) : Prop where
  waiting : ∀ e ∈ s.loop.waiting, e.2 = .stopInLoop →
    e.1 ≤ s.starts ∧ (e.1 = s.starts → s.connect_ = false)
  stopping : ∀ count ∈ s.stopping, count ≤ s.starts ∧ (count = s.starts → s.connect_ = false)

variable {s s' : ConnectorLoop} {a : SystemAnswers}

/-- No retry is outstanding when no timer is pending and none waits. -/
theorem retries_eq_zero : s.retries = 0 ↔
    s.timers = [] ∧ ∀ functor ∈ s.functors, functor.insertsTimer = false := by
  unfold ConnectorLoop.retries
  rw [Nat.add_eq_zero_iff, List.length_eq_zero_iff, List.countP_eq_zero]
  simp only [Bool.not_eq_true]

/-- Calls in the frame keep the stops known. -/
theorem StopsKnown.frame (h : s.StopsKnown) (hframe : s.Frame s') : s'.StopsKnown := by
  refine ⟨fun e he hkind => ?_, fun count hcount => ?_⟩
  · rw [hframe.starts, hframe.connect]
    exact h.waiting e (hframe.waiting e he (.inr hkind)) hkind
  · rw [hframe.starts, hframe.connect]
    exact h.stopping count (hframe.stopping ▸ hcount)

/-- After a `start` or `restart` no stop counts any more. -/
theorem StopsKnown.start (h : s.StopsKnown) (hstarts : s'.starts = s.starts + 1)
    (hloop : s'.loop = s.loop) (hstopping : s'.stopping = s.stopping) : s'.StopsKnown := by
  refine ⟨fun e he hkind => ?_, fun count hcount => ?_⟩
  · have hle := (h.waiting e (hloop ▸ he) hkind).1
    omega
  · have hle := (h.stopping count (hstopping ▸ hcount)).1
    omega

/-- Queueing another functor than `stopInLoop` keeps the stops known. -/
theorem StopsKnown.enqueue (h : s.StopsKnown) (count starting : ℕ) {functor : ConnectorFunctor}
    (hne : functor ≠ .stopInLoop) :
    StopsKnown { s with starting := starting, loop := s.loop.enqueue count functor } := by
  refine ⟨fun e he hkind => h.waiting e ?_ hkind, h.stopping⟩
  have hwaiting := EventLoop.waiting_enqueue s.loop count functor
  refine (List.mem_append.mp (hwaiting ▸ he)).resolve_right fun hnew => ?_
  obtain rfl := List.mem_singleton.mp hnew
  contradiction

/-- The store of `stop` counts the starts there were. -/
theorem StopsKnown.stopStore (h : s.StopsKnown) :
    StopsKnown { s with connect_ := false, stopping := s.stopping ++ [s.starts] } := by
  refine ⟨fun e he hkind => ⟨(h.waiting e he hkind).1, fun _ => rfl⟩,
    fun count hcount => ⟨?_, fun _ => rfl⟩⟩
  rcases List.mem_append.mp hcount with hold | hnew
  · exact (h.stopping count hold).1
  · exact Nat.le_of_eq (List.mem_singleton.mp hnew)

/-- The queued `stopInLoop` has the count of its store. -/
theorem StopsKnown.stopQueue (h : s.StopsKnown) {count : ℕ} {rest : List ℕ}
    (hstopping : s.stopping = count :: rest) :
    StopsKnown { s with stopping := rest, loop := s.loop.enqueue count .stopInLoop } := by
  refine ⟨fun e he hkind => ?_, fun other hother => ?_⟩
  · rcases List.mem_append.mp (EventLoop.waiting_enqueue s.loop _ _ ▸ he) with hold | hnew
    · exact h.waiting e hold hkind
    · obtain rfl := List.mem_singleton.mp hnew
      exact h.stopping count (hstopping ▸ List.mem_cons_self)
  · exact h.stopping other (hstopping ▸ List.mem_cons_of_mem _ hother)

/-- Every step keeps the stops known. -/
theorem StopsKnown.step (h : s.StopsKnown) {label : ConnectorLabel} (hs : s.step label = some s') :
    s'.StopsKnown := by
  cases step_spec hs with
  | startStore => exact h.start rfl rfl rfl
  | runStart =>
    have hknown : StopsKnown { s with starting := s.starting - 1 } := h.frame (.of_same rfl rfl rfl rfl)
    exact hknown.frame (frame_framing.after (frame_framing.startInLoop _) _)
  | queueStart => exact h.enqueue s.starts (s.starting - 1) (by decide)
  | stopStore => exact h.stopStore
  | stopQueue hstopping => exact h.stopQueue hstopping
  | restart =>
    have hknown : s.restarting.StopsKnown := h.start rfl rfl rfl
    exact hknown.frame (frame_framing.after (frame_framing.startInLoop _) _)
  | call _ hnext =>
    exact (h.frame (next_frame hnext s.active)).frame
      (frame_framing.after (frame_framing.execute _ _) _)
  | next _ _ hnext => exact h.frame (next_frame hnext s.active)
  | poll _ hnext => exact h.frame (next_frame hnext _)
  | handleEvent =>
    have hknown : StopsKnown { s with active := none } := h.frame (.of_same rfl rfl rfl rfl)
    exact hknown.frame (frame_framing.handleEvent _ _ _)
  | @fire delayMs =>
    have hknown : StopsKnown { s with timers := s.timers.erase delayMs } :=
      h.frame (.of_same rfl rfl rfl rfl)
    exact hknown.frame (frame_framing.after (frame_framing.connect _) _)
  | quit => exact ⟨h.waiting, h.stopping⟩

/-- What being at rest depends on. -/
theorem AtRest.of_same (h : s.AtRest) (hconnect : s'.connect_ = false) (hstate : s'.state = s.state)
    (htimers : s'.timers = s.timers)
    (hfunctors : ∀ functor ∈ s'.functors, functor.insertsTimer = true → functor ∈ s.functors) :
    s'.AtRest := by
  obtain ⟨hnone, hwaiting⟩ := retries_eq_zero.mp h.retries
  refine ⟨hconnect, hstate ▸ h.state, retries_eq_zero.mpr ⟨htimers.trans hnone, fun functor hmem => ?_⟩⟩
  by_contra hinserts
  rw [Bool.not_eq_false] at hinserts
  exact Bool.false_ne_true ((hwaiting functor (hfunctors functor hmem hinserts)).symm.trans hinserts)

/-- At rest, `startInLoop` does nothing or fails its assertion. -/
theorem AtRest.startInLoop (h : s.AtRest) :
    (s.after (startInLoop a)).AtRest ∧ (s.after (startInLoop a)).log = s.log := by
  by_cases hstate : s.state = .kDisconnected
  · have hexec := exec_startInLoop (a := a) hstate
    rw [if_neg (by simp [h.connect])] at hexec
    rw [after_of_ok hexec]
    exact ⟨h, rfl⟩
  · rw [after_of_error (exec_startInLoop_fault hstate)]
    exact ⟨⟨h.connect, h.state, h.retries⟩, rfl⟩

/-- At rest, a functor attempts nothing. -/
theorem AtRest.execute (h : s.AtRest) {functor : ConnectorFunctor}
    (hfunctor : functor.insertsTimer = false) :
    (s.after (execute a functor)).AtRest ∧ (s.after (execute a functor)).log = s.log := by
  cases functor with
  | startInLoop => exact h.startInLoop
  | stopInLoop =>
    have hexec : exec (ConnectorLoop.execute a .stopInLoop) s = (.ok ⟨⟩, s) :=
      exec_stopInLoop_other h.state
    rw [after_of_ok hexec]
    exact ⟨h, rfl⟩
  | resetChannel =>
    have hrest : AtRest { s with channel := none } := h.of_same h.connect rfl rfl fun _ hmem _ => hmem
    exact ⟨hrest, rfl⟩
  | insertTimer delayMs => contradiction

/-- At rest, the event of the channel attempts nothing. -/
theorem AtRest.handleEvent (h : s.AtRest) (revents : Mask) :
    (s.after (handleEventWithGuard a revents)).AtRest ∧
      (s.after (handleEventWithGuard a revents)).log = s.log := by
  refine after_handleEventWithGuard (P := fun s' => s'.AtRest ∧ s'.log = s.log) revents ⟨h, rfl⟩
    ⟨⟨h.connect, h.state, h.retries⟩, rfl⟩ ?_ fun _ => ?_
  · rw [after_of_ok (exec_handleError_other h.state)]
    exact ⟨h, rfl⟩
  · rw [after_of_ok (exec_handleWrite_other h.state)]
    exact ⟨h, rfl⟩

/-- At rest, a step of the loop thread leaves everything at rest. -/
theorem AtRest.next (h : s.AtRest) {m : EventLoop.Move} {loop : EventLoop ℕ ConnectorFunctor}
    (hnext : s.loop.next m = some loop) (active : Option Mask) :
    AtRest { s with loop := loop, active := active } := by
  refine h.of_same h.connect rfl rfl fun functor hmem _ => ?_
  by_cases hcall : m = .call
  · subst hcall
    obtain ⟨head, -, hfunctors⟩ := functors_call hnext
    exact hfunctors ▸ List.mem_cons_of_mem _ hmem
  · exact functors_next hcall hnext ▸ hmem

/-- A connector at rest stays so, and attempts nothing, until the next `start` or `restart`. -/
theorem AtRest.step (h : s.AtRest) {label : ConnectorLabel} (hlabel : label.starts = false)
    (hs : s.step label = some s') : s'.AtRest ∧ s'.log = s.log := by
  cases step_spec hs with
  | startStore | restart => contradiction
  | runStart =>
    have hrest : AtRest { s with starting := s.starting - 1 } :=
      h.of_same h.connect rfl rfl fun _ hmem _ => hmem
    exact hrest.startInLoop
  | queueStart =>
    refine ⟨h.of_same h.connect rfl rfl fun functor hmem hinserts => ?_, rfl⟩
    exact mem_functors_of_enqueue hmem fun heq => by simp [heq, ConnectorFunctor.insertsTimer] at hinserts
  | stopStore => exact ⟨h.of_same rfl rfl rfl fun _ hmem _ => hmem, rfl⟩
  | stopQueue =>
    refine ⟨h.of_same h.connect rfl rfl fun functor hmem hinserts => ?_, rfl⟩
    exact mem_functors_of_enqueue hmem fun heq => by simp [heq, ConnectorFunctor.insertsTimer] at hinserts
  | call _ hnext hfunctor =>
    obtain ⟨head, hhead, hfunctors⟩ := functors_call hnext
    obtain rfl := Option.some.inj (hhead.symm.trans hfunctor)
    have hinserts := (retries_eq_zero.mp h.retries).2 head (hfunctors ▸ List.mem_cons_self)
    exact (h.next hnext s.active).execute hinserts
  | next _ _ hnext => exact ⟨h.next hnext s.active, rfl⟩
  | poll _ hnext => exact ⟨h.next hnext _, rfl⟩
  | handleEvent =>
    have hrest : AtRest { s with active := none } := h.of_same h.connect rfl rfl fun _ hmem _ => hmem
    exact hrest.handleEvent _
  | fire _ _ hmem =>
    rw [(retries_eq_zero.mp h.retries).1] at hmem
    contradiction
  | quit => exact ⟨h.of_same h.connect rfl rfl fun _ hmem _ => hmem, rfl⟩

end ConnectorLoop

namespace StopHistory

/-- The invariant of a run. -/
structure Inv (h : StopHistory) : Prop where
  late : h.late = false
  known : h.connector.StopsKnown
  rest : h.stopped = true → h.connector.AtRest

/-- A `stopInLoop` that finds the connector at rest leaves `connect_` false with it. -/
theorem Inv.atRest {h : StopHistory} (hinv : h.Inv) {label : ConnectorLabel}
    (hrest : h.StopsAtRest label) (hstops : h.connector.stops label = true) : h.connector.AtRest := by
  obtain ⟨hstate, hretries⟩ := hrest hstops
  refine ⟨?_, hstate, hretries⟩
  cases label with
  | move m a =>
    cases m with
    | call =>
      have hnext : h.connector.loop.nextFunctor = some (h.connector.starts, .stopInLoop) := by
        simpa [ConnectorLoop.stops] using hstops
      exact (hinv.known.waiting _ (EventLoop.mem_waiting_of_nextFunctor hnext) rfl).2 rfl
    | enter | test | poll | handleRead | handled | swap | finish => contradiction
  | startStore | startRun | stopStore | stopQueue | restart | poll | handleEvent | fire | quit =>
    contradiction

/-- Every step keeps the invariant as long as `stopInLoop` finds the connector at rest. -/
theorem Inv.step {h h' : StopHistory} (hinv : h.Inv) {label : ConnectorLabel}
    (hrest : h.StopsAtRest label) (hs : h.step label = some h') : h'.Inv := by
  obtain ⟨connector, hconnector, rfl⟩ := Option.map_eq_some_iff.mp hs
  have hknown := hinv.known.step hconnector
  cases hlabel : label.starts with
  | true => exact ⟨by simp [hinv.late], hknown, fun hstopped => by simp at hstopped⟩
  | false =>
    by_cases hstopped : h.stopped = true ∨ h.connector.stops label = true
    · obtain ⟨hafter, hlog⟩ := (hstopped.elim hinv.rest (hinv.atRest hrest)).step hlabel hconnector
      exact ⟨by simp [hinv.late, hlog], hknown, fun _ => hafter⟩
    · rw [not_or, Bool.not_eq_true, Bool.not_eq_true] at hstopped
      exact ⟨by simp [hinv.late, hstopped.1], hknown, fun h => by simp [hstopped] at h⟩

end StopHistory

/-- In every run in which `stopInLoop` finds no attempt in progress and no retry outstanding, no attempt is
made between a `stop` and the next `start` or `restart`. -/
theorem connector_staysStopped (labels : List ConnectorLabel)
    (h : Along StopHistory.step StopHistory.StopsAtRest .constructed labels) :
    Everywhere StopHistory.step StopHistory.StaysStopped .constructed labels := by
  refine everywhere_of_along (I := StopHistory.Inv) (fun _ hs => hs.late)
    (fun _ _ _ hs hrest hstep => hs.step hrest hstep) ?_ h
  exact ⟨rfl, ⟨(fun e he => nomatch he), (fun count hcount => nomatch hcount)⟩, (fun h => nomatch h)⟩

/-- A `stop` behind a completed attempt finds the connector at rest, and the loop polls twice more behind
`stopInLoop`. -/
theorem connector_staysStopped_connected :
    Everywhere StopHistory.step StopHistory.StaysStopped .constructed
      [.startStore, .startRun true (.connects 5 EINPROGRESS), .move .enter .silent, .move .test .silent,
        .poll (some EPOLLOUT), .handleEvent .silent, .stopStore, .stopQueue, .move .handled .silent,
        .move .swap .silent, .move .call .silent, .move .call .silent, .move .finish .silent,
        .move .test .silent, .poll none, .move .handled .silent, .move .swap .silent,
        .move .finish .silent, .move .test .silent, .poll none, .move .handled .silent,
        .move .swap .silent, .move .finish .silent] :=
  connector_staysStopped _ (by decide)

/-- An attempt fails and leaves its retry timer, `restart` fails at once, and `stop` finds the connector
disconnected. The timer still calls `connect`. -/
theorem connector_notStopped_retry :
    ¬ Everywhere StopHistory.step StopHistory.StaysStopped .constructed
      [.startStore, .startRun true (.connects 5 EINPROGRESS), .move .enter .silent, .move .test .silent,
        .poll (some EPOLLERR), .handleEvent .silent, .move .handled .silent, .move .swap .silent,
        .move .call .silent, .move .call .silent, .move .call .silent, .move .finish .silent,
        .move .test .silent, .poll none, .restart (.connects 6 EACCES), .stopStore, .stopQueue,
        .move .handled .silent, .move .swap .silent, .move .call .silent, .move .finish .silent,
        .move .test .silent, .poll none, .fire 5 (.connects 7 EINPROGRESS)] := by
  decide

end CcMuduo
