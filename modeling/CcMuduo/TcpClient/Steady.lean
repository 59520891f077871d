import CcMuduo.Connector.Attempt
import CcMuduo.TcpClient

/-!
# One attempt or one retry

The invariant of a connector that is used with care: an attempt is in progress and no retry is
outstanding, or no socket is held and at most one retry is outstanding. A retry is inserted behind the
`resetChannel` that clears `channel_`, so its timer finds `channel_` empty.
-/

namespace CcMuduo

open Foundation

/-- `::connect` fails at once with an error to try again after. -/
def SystemAnswers.refusedAtOnce (a : SystemAnswers) : Prop :=
  a.socket ≠ none ∧ a.connect ∈ retryErrnos

instance (a : SystemAnswers) : Decidable a.refusedAtOnce :=
  inferInstanceAs (Decidable (a.socket ≠ none ∧ a.connect ∈ retryErrnos))

namespace ConnectorLoop

variable (s : ConnectorLoop)

/-- No attempt is in progress. A channel that was taken out waits to be cleared, ahead of the retry, and
after an attempt there is a retry unless the attempt succeeded. -/
structure Waits : Prop where
  holds : held s.log = []
  channel : ∀ c ∈ s.channel, c.index = .kNew ∧ s.poller.interest c.fd = none
  reset : s.channel ≠ none → .resetChannel ∈ s.functors
  timers : s.timers ≠ [] → .resetChannel ∉ s.functors
  order : s.functors.Pairwise fun f g => f.insertsTimer = true → g ≠ .resetChannel
  single : s.retries ≤ 1
  pending : .resetChannel ∈ s.functors → 0 < s.retries ∨ s.state = .kConnected

/-- One attempt or at most one retry; a connection comes from an attempt that succeeded. -/
structure Steady (connected : Bool) : Prop where
  attempt : (∃ c, s.Attempting c ∧ s.retries = 0 ∧ connected = false) ∨
    s.Waits ∧ (connected = true → s.retries = 0 ∧ s.state = .kConnected)
  active : s.active ≠ none → (∃ b, s.loop.pc = .handling b) ∧ ∃ c, s.Attempting c
  starts : .startInLoop ∉ s.functors

/-- The process goes on in a steady state, or `LOG_FATAL` has ended it. -/
def GoesOn (connected : Bool) : Prop :=
  (s.fault = none ∧ s.Steady connected) ∨ (s.fault = some .fatal ∧ (held s.log).length ≤ 1)

variable {s} {s' : ConnectorLoop} {a : SystemAnswers} {c : Channel} {connected : Bool}

/-- What waiting depends on. -/
theorem Waits.of_same (h : s.Waits) (hheld : held s'.log = held s.log) (hchannel : s'.channel = s.channel)
    (hpoller : s'.poller = s.poller) (hfunctors : s'.functors = s.functors)
    (htimers : s'.timers = s.timers) (hstate : s'.state = s.state) : s'.Waits := by
  have hretries : s'.retries = s.retries := by rw [retries, retries, hfunctors, htimers]
  exact ⟨hheld.trans h.holds, hchannel ▸ hpoller ▸ h.channel, hchannel ▸ hfunctors ▸ h.reset,
    htimers ▸ hfunctors ▸ h.timers, hfunctors ▸ h.order, hretries ▸ h.single,
    hfunctors ▸ hretries ▸ hstate ▸ h.pending⟩

/-- When the channel is not waiting to be cleared, there is none. -/
theorem Waits.channel_none (h : s.Waits) (hreset : .resetChannel ∉ s.functors) : s.channel = none := by
  by_contra hne
  exact hreset (h.reset hne)

/-- While waiting no channel is registered. -/
theorem Waits.registered (h : s.Waits) : s.registered = false := by
  cases hchannel : s.channel with
  | none => simp [ConnectorLoop.registered, hchannel]
  | some c => simp [ConnectorLoop.registered, hchannel, (h.channel c hchannel).1]

/-- With no retry outstanding, no insertion waits. -/
theorem insertsTimer_of_retries (h : s.retries = 0) {functor : ConnectorFunctor}
    (hmem : functor ∈ s.functors) : functor.insertsTimer = false := by
  have hzero := (Nat.add_eq_zero_iff.mp h).2
  rw [List.countP_eq_zero] at hzero
  simpa using hzero functor hmem

/-- With no retry outstanding, any order is right. -/
theorem order_of_retries (h : s.retries = 0) :
    s.functors.Pairwise fun f g => f.insertsTimer = true → g ≠ .resetChannel :=
  List.pairwise_of_forall_mem_list fun f hf _ _ hinserts =>
    absurd (insertsTimer_of_retries h hf) (by simp [hinserts])

/-- An attempt that ended with a retry leaves the connector waiting. -/
theorem Waits.of_retry (delayMs : ℕ) (hretries : s.retries = 0) (hholds : held s'.log = [])
    (hchannel : ∀ c ∈ s'.channel, c.index = .kNew ∧ s'.poller.interest c.fd = none)
    (hfunctors : s'.functors = s.functors ++ [.resetChannel, .resetChannel, .insertTimer delayMs])
    (htimers : s'.timers = s.timers) : s'.Waits := by
  obtain ⟨htimer, hcount⟩ := Nat.add_eq_zero_iff.mp hretries
  have hone : s'.retries = 1 := by
    simp [retries, hfunctors, htimers, htimer, hcount, ConnectorFunctor.insertsTimer]
  refine ⟨hholds, hchannel, fun _ => by simp [hfunctors], fun hne => ?_, ?_, Nat.le_of_eq hone,
    fun _ => .inl (by simp [hone])⟩
  · rw [htimers] at hne
    exact absurd (List.length_eq_zero_iff.mp htimer) hne
  · rw [hfunctors, List.pairwise_append]
    refine ⟨order_of_retries hretries, by simp [ConnectorFunctor.insertsTimer], fun f hf g _ hinserts => ?_⟩
    simp [insertsTimer_of_retries hretries hf] at hinserts

/-- An attempt that succeeded leaves the connector waiting. -/
theorem Waits.of_handOver (hretries : s.retries = 0) (hholds : held s'.log = [])
    (hchannel : ∀ c ∈ s'.channel, c.index = .kNew ∧ s'.poller.interest c.fd = none)
    (hfunctors : s'.functors = s.functors ++ [.resetChannel]) (htimers : s'.timers = s.timers)
    (hstate : s'.state = .kConnected) : s'.Waits ∧ s'.retries = 0 := by
  obtain ⟨htimer, hcount⟩ := Nat.add_eq_zero_iff.mp hretries
  have hzero : s'.retries = 0 := by
    simp [retries, hfunctors, htimers, htimer, hcount, ConnectorFunctor.insertsTimer]
  refine ⟨⟨hholds, hchannel, fun _ => by simp [hfunctors], fun hne => ?_, order_of_retries hzero,
    by simp [hzero], fun _ => .inr hstate⟩, hzero⟩
  rw [htimers] at hne
  exact absurd (List.length_eq_zero_iff.mp htimer) hne

/-- A steady connector holds one socket at most. -/
theorem GoesOn.held_le (h : s.GoesOn connected) : (held s.log).length ≤ 1 := by
  rcases h with ⟨-, hsteady⟩ | ⟨-, hheld⟩
  · rcases hsteady.attempt with ⟨c, hc, -⟩ | ⟨hwaits, -⟩
    · simp [hc.holds]
    · simp [hwaits.holds]
  · exact hheld

/-- Without an attempt the connector waits, and no event is left. -/
theorem Steady.waits (h : s.Steady connected) (hnone : ∀ c, ¬ s.Attempting c) :
    s.Waits ∧ (connected = true → s.retries = 0 ∧ s.state = .kConnected) ∧ s.active = none := by
  have hwaits := h.attempt.resolve_left fun ⟨c, hc, _⟩ => hnone c hc
  refine ⟨hwaits.1, hwaits.2, ?_⟩
  by_contra hne
  obtain ⟨-, c, hc⟩ := h.active hne
  exact hnone c hc

/-- During an attempt no retry is outstanding, and there is no connection. -/
theorem Steady.attempting (h : s.Steady connected) (hc : s.Attempting c) :
    s.retries = 0 ∧ connected = false := by
  rcases h.attempt with ⟨_, -, hretries, hconnected⟩ | ⟨hwaits, -⟩
  · exact ⟨hretries, hconnected⟩
  · have hindex := (hwaits.channel c hc.channel).1
    exact absurd (hindex.symm.trans hc.index) (by decide)

/-- The connector goes on behind a call, with a connection when it has handed a socket over. -/
def Continues (s s' : ConnectorLoop) (connected : Bool) : Prop :=
  s'.GoesOn (connected || handOvers s'.log != handOvers s.log)

/-- A call that hands nothing over. -/
theorem Continues.of_handOvers (h : s'.GoesOn connected) (hlog : handOvers s'.log = handOvers s.log) :
    s.Continues s' connected := by
  unfold Continues
  rw [hlog, bne_self_eq_false, Bool.or_false]
  exact h

/-- A connector that waits goes on. -/
theorem Waits.goesOn (h : s.Waits) (hactive : s.active = none) (hstarts : .startInLoop ∉ s.functors)
    (hfault : s.fault = none) : s.GoesOn false :=
  .inl ⟨hfault, .inr ⟨h, fun hc => nomatch hc⟩, fun hne => absurd hactive hne, hstarts⟩

/-- `connect` begins an attempt or gives up, when no retry is outstanding and no channel is left. -/
theorem Waits.connect (h : s.Waits) (hretries : s.retries = 0) (hreset : .resetChannel ∉ s.functors)
    (hstarts : .startInLoop ∉ s.functors) (hactive : s.active = none) (hfault : s.fault = none)
    (hmay : ¬ a.refusedAtOnce) (hadmits : s.admits a) :
    (s.after (connect a)).GoesOn false ∧ handOvers (s.after (connect a)).log = handOvers s.log := by
  cases hsocket : a.socket with
  | none =>
    rw [after_of_error (exec_connect_fatal hsocket)]
    refine ⟨.inr ⟨rfl, ?_⟩, by simp [handOvers]⟩
    simp [held, h.holds]
  | some fd =>
    have hretry : a.connect ∉ retryErrnos := fun hmem => hmay ⟨by simp [hsocket], hmem⟩
    by_cases herrno : a.connect ∈ connectingErrnos
    · have hexec := (exec_connect_connecting hsocket herrno).trans
        (exec_connecting (s := s.created fd) (h.channel_none hreset) List.mem_cons_self
          (hadmits fd hsocket).2)
      rw [after_of_ok hexec]
      have hholds : held (.socket fd :: .attempt :: s.log) = [fd] := congrArg (fd :: ·) h.holds
      exact ⟨.inl ⟨hfault, .inl ⟨_, ⟨rfl, rfl, rfl, hholds, hreset⟩, hretries, rfl⟩,
        fun hne => absurd hactive hne, hstarts⟩, by simp [attempting, created, handOvers]⟩
    · rw [after_of_ok (exec_connect_close hsocket herrno hretry)]
      have hheld : held (.close fd :: .socket fd :: .attempt :: s.log) = held s.log :=
        List.erase_cons_head fd (held s.log)
      have hwaits : Waits { s with log := .close fd :: .socket fd :: .attempt :: s.log } :=
        h.of_same hheld rfl rfl rfl rfl rfl
      exact ⟨hwaits.goesOn hactive hstarts hfault, by simp [handOvers]⟩

/-- An attempt whose socket was closed goes on to `retry`. -/
theorem Attempting.retry (h : s.Attempting c) (hretries : s.retries = 0) (hactive : s.active = none)
    (hstarts : .startInLoop ∉ s.functors) (hfault : s.fault = none) (state : ConnectorState)
    (delayMs : ℕ) :
    s.Continues ((({ s.detached c [.del] with state := state } : ConnectorLoop).closed c.fd).after
      (retry a delayMs)) false := by
  have hheld := h.held_erase
  set s₁ := ({ s.detached c [.del] with state := state } : ConnectorLoop).closed c.fd
  set c₁ : Channel := { c with events := kNoneEvent, index := .kNew }
  have hset : s₁.poller.interest c₁.fd = none := Function.update_self _ _ _
  rcases after_retry_new (a := a) (s := s₁) (c := c₁) delayMs rfl rfl hset with hafter | hafter
  · have hfunctors : ((s₁.detached c₁ [.del, .add]).scheduled c.fd delayMs).functors =
        s.functors ++ [.resetChannel, .resetChannel, .insertTimer delayMs] := by
      simp [functors, scheduled, detached, closed, s₁, EventLoop.waiting_enqueue]
    have hwaits : ((s₁.detached c₁ [.del, .add]).scheduled c.fd delayMs).Waits := by
      refine .of_retry delayMs hretries (congrArg (List.erase · c.fd) hheld) ?_ hfunctors rfl
      rintro c' hc'
      obtain rfl := Option.some.inj hc'
      exact ⟨rfl, Function.update_self _ _ _⟩
    rw [hafter]
    refine .of_handOvers (hwaits.goesOn hactive ?_ hfault) ?_
    · rw [hfunctors]
      simp [hstarts]
    · simp [scheduled, detached, closed, s₁, handOvers]
  · rw [hafter]
    refine .of_handOvers (.inr ⟨rfl, ?_⟩) ?_
    · simp [held, closed, detached, s₁, hheld]
    · simp [closed, detached, s₁, handOvers]

/-- The event of a failed attempt. -/
theorem Attempting.handleError_continues (h : s.Attempting c) (hretries : s.retries = 0)
    (hactive : s.active = none) (hstarts : .startInLoop ∉ s.functors) (hfault : s.fault = none) :
    s.Continues (s.after (handleError a)) false := by
  rw [after_of_ok (exec_handleError_added h.state h.channel h.index h.mem_held)]
  set s₁ := ((s.detached c [.del]).detached { c with events := kNoneEvent, index := .kNew }
    [.del, .add]).scheduled c.fd c.fd
  have hfunctors : s₁.functors = s.functors ++ [.resetChannel, .resetChannel, .insertTimer c.fd] := by
    simp [functors, scheduled, detached, s₁, EventLoop.waiting_enqueue]
  have hwaits : s₁.Waits := by
    refine .of_retry c.fd hretries h.held_erase ?_ hfunctors rfl
    rintro c' hc'
    obtain rfl := Option.some.inj hc'
    exact ⟨rfl, Function.update_self _ _ _⟩
  refine .of_handOvers (hwaits.goesOn hactive ?_ hfault) ?_
  · rw [hfunctors]
    simp [hstarts]
  · simp [scheduled, detached, s₁, handOvers]

/-- The event of an attempt that is writable. -/
theorem Attempting.handleWrite_continues (h : s.Attempting c) (hretries : s.retries = 0)
    (hactive : s.active = none) (hstarts : .startInLoop ∉ s.functors) (hfault : s.fault = none) :
    s.Continues (s.after (handleWrite a)) false := by
  by_cases hfailed : a.soError ≠ 0 ∨ a.selfConnect = true
  · rw [after_handleWrite_failed h.state h.channel h.index hfailed]
    exact h.retry hretries hactive hstarts hfault s.state s.retryDelayMs
  · cases hconnect : s.connect_ with
    | false =>
      rw [after_handleWrite_unwanted h.state h.channel h.index hfailed hconnect]
      exact h.retry hretries hactive hstarts hfault .kConnected s.retryDelayMs
    | true =>
      rw [not_or, not_not, Bool.not_eq_true] at hfailed
      rw [after_of_ok (exec_handleWrite_success h.state h.channel h.index hfailed.1 hfailed.2 hconnect)]
      set s₁ : ConnectorLoop := { s.detached c [.del] with
        state := .kConnected
        log := .handOver c.fd :: (s.detached c [.del]).log }
      have hfunctors : s₁.functors = s.functors ++ [.resetChannel] :=
        functors_enqueue s s.starts .resetChannel
      obtain ⟨hwaits, hzero⟩ : s₁.Waits ∧ s₁.retries = 0 := by
        refine Waits.of_handOver hretries h.held_erase ?_ hfunctors rfl rfl
        rintro c' hc'
        obtain rfl := Option.some.inj hc'
        exact ⟨rfl, Function.update_self _ _ _⟩
      refine .inl ⟨hfault, .inr ⟨hwaits, fun _ => ⟨hzero, rfl⟩⟩, fun hne => absurd hactive hne, ?_⟩
      rw [hfunctors]
      simp [hstarts]

/-- The event of the channel. -/
theorem Steady.handleEvent (h : s.Steady connected) {revents : Mask} (hactive : s.active = some revents)
    (hfault : s.fault = none) :
    s.Continues (({ s with active := none } : ConnectorLoop).after (handleEventWithGuard a revents))
      connected := by
  obtain ⟨-, c, hc⟩ := h.active (by simp [hactive])
  obtain ⟨hretries, rfl⟩ := h.attempting hc
  set s₁ : ConnectorLoop := { s with active := none }
  have hc₁ : s₁.Attempting c := hc.of_same rfl rfl rfl id
  have hsteady : s₁.Steady false :=
    ⟨.inl ⟨c, hc₁, hretries, rfl⟩, fun hne => absurd rfl hne, h.starts⟩
  refine after_handleEventWithGuard (P := fun s' => s.Continues s' false) revents ?_ ?_ ?_ fun _ => ?_
  · exact .of_handOvers (.inl ⟨hfault, hsteady⟩) rfl
  · exact .of_handOvers (.inr ⟨rfl, by simp [s₁, hc.holds]⟩) rfl
  · exact hc₁.handleError_continues hretries rfl h.starts hfault
  · exact hc₁.handleWrite_continues hretries rfl h.starts hfault

/-- A step of the loop thread that calls no functor. -/
theorem Steady.next (h : s.Steady connected) {m : EventLoop.Move} {active : Option Mask}
    {loop : EventLoop ℕ ConnectorFunctor} (hcall : m ≠ .call) (hnext : s.loop.next m = some loop)
    (hactive : active ≠ none → (∃ b, loop.pc = .handling b) ∧ ∃ c, s.Attempting c) :
    Steady { s with loop := loop, active := active } connected := by
  have hfunctors : functors { s with loop := loop, active := active } = s.functors :=
    functors_next hcall hnext
  have hretries : retries { s with loop := loop, active := active } = s.retries := by
    rw [ConnectorLoop.retries, hfunctors, ConnectorLoop.retries]
  refine ⟨?_, fun hne => ?_, hfunctors ▸ h.starts⟩
  · rw [hretries]
    exact h.attempt.imp (fun ⟨c, hc, hrest⟩ => ⟨c, hc.next hnext active, hrest⟩)
      fun ⟨hwaits, hrest⟩ => ⟨hwaits.of_same rfl rfl rfl hfunctors rfl rfl, hrest⟩
  · obtain ⟨hpc, c, hc⟩ := hactive hne
    exact ⟨hpc, c, hc.next hnext active⟩

/-- Taking a functor out that inserts no timer leaves the retries alone. -/
theorem retries_call {functor : ConnectorFunctor} (hfunctors : s.functors = functor :: s'.functors)
    (htimers : s'.timers = s.timers) (hinserts : functor.insertsTimer = false) :
    s'.retries = s.retries := by
  simp [retries, hfunctors, htimers, hinserts]

/-- Waiting goes on when a `stopInLoop` is taken out. -/
theorem Waits.call_stopInLoop (h : s.Waits) {loop : EventLoop ℕ ConnectorFunctor}
    (hfunctors : s.functors = .stopInLoop :: functors { s with loop := loop }) :
    Waits { s with loop := loop } := by
  have hretries : retries { s with loop := loop } = s.retries := retries_call hfunctors rfl rfl
  have hmem : .resetChannel ∈ s.functors ↔ .resetChannel ∈ functors { s with loop := loop } := by
    rw [hfunctors]
    simp
  exact ⟨h.holds, h.channel, fun hne => hmem.mp (h.reset hne),
    fun hne hreset => h.timers hne (hmem.mpr hreset),
    (List.pairwise_cons.mp (hfunctors ▸ h.order)).2, hretries ▸ h.single,
    fun hreset => hretries ▸ h.pending (hmem.mpr hreset)⟩

/-- Waiting goes on when the channel is cleared. -/
theorem Waits.call_resetChannel (h : s.Waits) {loop : EventLoop ℕ ConnectorFunctor}
    (hfunctors : s.functors = .resetChannel :: functors { s with loop := loop }) :
    Waits { s with loop := loop, channel := none } := by
  have hretries : retries { s with loop := loop } = s.retries := retries_call hfunctors rfl rfl
  have hreset : .resetChannel ∈ s.functors := hfunctors ▸ List.mem_cons_self
  exact ⟨h.holds, (fun c hc => nomatch hc), fun hne => absurd rfl hne,
    fun hne => absurd hreset (h.timers hne),
    (List.pairwise_cons.mp (hfunctors ▸ h.order)).2, hretries ▸ h.single,
    fun _ => hretries ▸ h.pending hreset⟩

/-- Waiting goes on when the retry timer is inserted. -/
theorem Waits.call_insertTimer (h : s.Waits) {loop : EventLoop ℕ ConnectorFunctor} {delayMs : ℕ}
    (hfunctors : s.functors = .insertTimer delayMs :: functors { s with loop := loop }) :
    Waits { s with loop := loop, timers := delayMs :: s.timers } := by
  obtain ⟨horder, htail⟩ := List.pairwise_cons.mp (hfunctors ▸ h.order)
  have hbehind : .resetChannel ∉ functors { s with loop := loop } := fun hmem => horder _ hmem rfl rfl
  have hreset : .resetChannel ∉ s.functors := by
    rw [hfunctors]
    simpa using hbehind
  have hretries : retries { s with loop := loop, timers := delayMs :: s.timers } = s.retries := by
    have hcount : s.functors.countP ConnectorFunctor.insertsTimer =
        (functors { s with loop := loop }).countP ConnectorFunctor.insertsTimer + 1 := by
      rw [hfunctors]
      exact List.countP_cons_of_pos rfl
    rw [ConnectorLoop.retries, ConnectorLoop.retries, hcount]
    exact Nat.add_right_comm _ _ _
  exact ⟨h.holds, h.channel, fun hne => absurd (h.channel_none hreset) hne, fun _ => hbehind, htail,
    hretries ▸ h.single, fun hmem => absurd hmem hbehind⟩

/-- A functor is called. `stopInLoop` must find its attempt still in progress. -/
theorem Steady.call (h : s.Steady connected) (hfault : s.fault = none) (hactive : s.active = none)
    {loop : EventLoop ℕ ConnectorFunctor} (hnext : s.loop.next .call = some loop)
    {functor : ConnectorFunctor} (hfunctor : s.nextFunctor = some functor)
    (hstop : functor = .stopInLoop → s.state = .kConnecting → s.registered = true) :
    s.Continues (({ s with loop := loop } : ConnectorLoop).after (execute a functor)) connected := by
  obtain ⟨head, hhead, hfunctors⟩ := functors_call hnext
  obtain rfl := Option.some.inj (hhead.symm.trans hfunctor)
  set s₁ : ConnectorLoop := { s with loop := loop }
  have hstarts : .startInLoop ∉ s₁.functors := fun hmem =>
    h.starts (hfunctors ▸ List.mem_cons_of_mem _ hmem)
  cases head with
  | startInLoop => exact absurd (hfunctors ▸ List.mem_cons_self) h.starts
  | stopInLoop =>
    have hretries : s₁.retries = s.retries := retries_call hfunctors rfl rfl
    by_cases hstate : s.state = .kConnecting
    · rcases h.attempt with ⟨c, hc, hnone, rfl⟩ | ⟨hwaits, -⟩
      · have hc₁ : s₁.Attempting c := hc.next hnext s.active
        have hafter : s₁.after (execute a .stopInLoop) =
            ((({ s₁ with state := .kDisconnected } : ConnectorLoop).detached c [.del]).closed c.fd).after
              (ConnectorLoop.retry a s₁.retryDelayMs) :=
          after_stopInLoop_added hstate hc₁.channel hc₁.index
        rw [hafter]
        exact hc₁.retry (hretries.trans hnone) hactive hstarts hfault .kDisconnected s₁.retryDelayMs
      · exact absurd (hwaits.registered.symm.trans (hstop rfl hstate)) Bool.false_ne_true
    · have hafter : s₁.after (execute a .stopInLoop) = s₁ := after_of_ok (exec_stopInLoop_other hstate)
      rw [hafter]
      refine .of_handOvers (.inl ⟨hfault, ?_, fun hne => absurd hactive hne, hstarts⟩) rfl
      rw [hretries]
      exact h.attempt.imp (fun ⟨c, hc, hrest⟩ => ⟨c, hc.next hnext s.active, hrest⟩)
        fun ⟨hwaits, hrest⟩ => ⟨hwaits.call_stopInLoop hfunctors, hrest⟩
  | resetChannel =>
    obtain ⟨hwaits, hconnected, -⟩ := h.waits fun c hc => hc.keeps (hfunctors ▸ List.mem_cons_self)
    have hretries : s₁.retries = s.retries := retries_call hfunctors rfl rfl
    exact .of_handOvers (.inl ⟨hfault, .inr ⟨hwaits.call_resetChannel hfunctors,
      fun hc => hretries ▸ hconnected hc⟩, fun hne => absurd hactive hne, hstarts⟩) rfl
  | insertTimer delayMs =>
    have hinserts : s.retries ≠ 0 := fun hzero => by
      have hfalse := insertsTimer_of_retries hzero (hfunctors ▸ List.mem_cons_self)
      simp [ConnectorFunctor.insertsTimer] at hfalse
    obtain ⟨hwaits, hconnected, -⟩ := h.waits fun c hc => hinserts (h.attempting hc).1
    exact .of_handOvers (.inl ⟨hfault, .inr ⟨hwaits.call_insertTimer hfunctors,
      fun hc => absurd (hconnected hc).1 hinserts⟩, fun hne => absurd hactive hne, hstarts⟩) rfl

/-- A `stopInLoop` is queued. -/
theorem Steady.stop (h : s.Steady connected) (stopping : List ℕ) (count : ℕ) :
    Steady { s with
      connect_ := false
      stopping := stopping
      loop := s.loop.enqueue count .stopInLoop } connected := by
  set s₁ : ConnectorLoop := { s with
    connect_ := false
    stopping := stopping
    loop := s.loop.enqueue count .stopInLoop }
  have hfunctors : s₁.functors = s.functors ++ [.stopInLoop] := functors_enqueue s count .stopInLoop
  have hmem {functor : ConnectorFunctor} (hne : functor ≠ .stopInLoop) :
      functor ∈ s₁.functors ↔ functor ∈ s.functors := by
    simp [hfunctors, hne]
  have hreset : .resetChannel ∈ s₁.functors ↔ .resetChannel ∈ s.functors := hmem (by decide)
  have hretries : s₁.retries = s.retries := by
    simp [ConnectorLoop.retries, hfunctors, s₁, ConnectorFunctor.insertsTimer]
  have hattempting {c : Channel} (hc : s.Attempting c) : s₁.Attempting c :=
    hc.of_same rfl rfl rfl hreset.mp
  refine ⟨?_, fun hne => ?_, fun hstart => h.starts ((hmem (by decide)).mp hstart)⟩
  · rw [hretries]
    refine h.attempt.imp (fun ⟨c, hc, hrest⟩ => ⟨c, hattempting hc, hrest⟩)
      fun ⟨hwaits, hrest⟩ => ⟨?_, hrest⟩
    refine ⟨hwaits.holds, hwaits.channel, fun hne => hreset.mpr (hwaits.reset hne),
      fun hne hmem => hwaits.timers hne (hreset.mp hmem), ?_, hretries ▸ hwaits.single,
      fun hmem => hretries ▸ hwaits.pending (hreset.mp hmem)⟩
    rw [hfunctors, List.pairwise_append]
    exact ⟨hwaits.order, List.pairwise_singleton _ _, fun f _ g hg _ => by simp_all⟩
  · obtain ⟨hpc, c, hc⟩ := h.active hne
    exact ⟨hpc, c, hattempting hc⟩

/-- The retry timer expires, and no retry is outstanding any more. -/
theorem Waits.fire (h : s.Waits) {delayMs : ℕ} (hmem : delayMs ∈ s.timers) :
    Waits { s with timers := s.timers.erase delayMs } ∧
      retries { s with timers := s.timers.erase delayMs } = 0 := by
  have hreset := h.timers (List.ne_nil_of_mem hmem)
  have hlength := List.length_erase_of_mem hmem
  have hpos := List.length_pos_of_mem hmem
  have hsingle := h.single
  have hzero : retries { s with timers := s.timers.erase delayMs } = 0 := by
    unfold ConnectorLoop.retries at hsingle ⊢
    show (s.timers.erase delayMs).length + s.functors.countP ConnectorFunctor.insertsTimer = 0
    omega
  exact ⟨⟨h.holds, h.channel, h.reset, fun _ => hreset, h.order, by omega,
    fun hr => absurd hr hreset⟩, hzero⟩

/-- `restart` finds a connector that waits without a channel to clear. -/
theorem Waits.restarting (h : s.Waits) (hreset : .resetChannel ∉ s.functors) : s.restarting.Waits :=
  ⟨h.holds, h.channel, h.reset, h.timers, h.order, h.single, fun hr => absurd hr hreset⟩

/-- `quit` does not concern the connector. -/
theorem Steady.quit (h : s.Steady connected) : Steady { s with loop := s.loop.setQuit } connected := by
  refine ⟨h.attempt.imp (fun ⟨c, hc, hrest⟩ => ⟨c, hc.of_same rfl rfl rfl id, hrest⟩)
    fun ⟨hwaits, hrest⟩ => ⟨hwaits.of_same rfl rfl rfl rfl rfl rfl, hrest⟩, fun hne => ?_, h.starts⟩
  obtain ⟨hpc, c, hc⟩ := h.active hne
  exact ⟨hpc, c, hc.of_same rfl rfl rfl id⟩

end ConnectorLoop

end CcMuduo
