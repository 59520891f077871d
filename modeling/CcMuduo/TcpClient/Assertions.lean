import CcMuduo.TcpClient.Steady

/-!
# The assertions of the connector

What a client may rely on: `removeAndResetChannel` finds a channel, `connecting` finds none, `startInLoop`
finds `kDisconnected`, and the connector holds one socket at most. Each fails on some path: an immediate
failure of `::connect` has no channel to remove, a `connect` may meet an attempt, a connection or a retry
of before, `stopInLoop` may find `kConnecting` left behind by an attempt that has ended, and a connection
that is closed before `resetChannel` has run restarts the connector too early.
-/

namespace CcMuduo

open Foundation

/-- The attempt of a retry timer does not fail at once, and `stopInLoop` finds an attempt in progress when
it finds `kConnecting`. -/
def ConnectorLoop.LoopCareful (s : ConnectorLoop) : ConnectorLabel → Prop
  | .fire _ a => ¬ a.refusedAtOnce
  | .move .call _ =>
    s.nextFunctor = some .stopInLoop → s.state = .kConnecting → s.registered = true
  | _ => True

instance (s : ConnectorLoop) : DecidablePred s.LoopCareful
  | .fire _ a => inferInstanceAs (Decidable (¬ a.refusedAtOnce))
  | .move .call _ => inferInstanceAs (Decidable
      (s.nextFunctor = some .stopInLoop → s.state = .kConnecting → s.registered = true))
  | .startStore | .startRun _ _ | .stopStore | .stopQueue | .restart _ | .poll _ | .handleEvent _ | .quit
  | .move .enter _ | .move .test _ | .move .poll _ | .move .handleRead _ | .move .handled _
  | .move .swap _ | .move .finish _ => inferInstanceAs (Decidable True)

namespace TcpClient

variable (c : TcpClient)

/-- No assertion has failed, and at most one socket is held. -/
structure Asserts : Prop where
  fault : c.connector.fault = none ∨ c.connector.fault = some .fatal
  single : (held c.connector.log).length ≤ 1

instance : DecidablePred Asserts := fun c =>
  decidable_of_iff ((c.connector.fault = none ∨ c.connector.fault = some .fatal) ∧
    (held c.connector.log).length ≤ 1) ⟨fun h => ⟨h.1, h.2⟩, fun h => ⟨h.1, h.2⟩⟩

/-- Is the connector used with care in the step? -/
def Careful : ClientLabel → Prop
  | .connect a =>
    c.connector.state = .kDisconnected ∧ c.connector.retries = 0 ∧ ¬ a.refusedAtOnce
  | .removeConnection a =>
    c.retry_ = true → c.connect_ = true → .resetChannel ∉ c.connector.functors ∧ ¬ a.refusedAtOnce
  | .loop label => c.connector.LoopCareful label
  | .disconnect | .stop | .enableRetry => True

instance : DecidablePred c.Careful
  | .connect a => inferInstanceAs (Decidable
      (c.connector.state = .kDisconnected ∧ c.connector.retries = 0 ∧ ¬ a.refusedAtOnce))
  | .removeConnection a => inferInstanceAs (Decidable (c.retry_ = true → c.connect_ = true →
      .resetChannel ∉ c.connector.functors ∧ ¬ a.refusedAtOnce))
  | .loop label => inferInstanceAs (Decidable (c.connector.LoopCareful label))
  | .disconnect | .stop | .enableRetry => inferInstanceAs (Decidable True)

variable {c} {c' : TcpClient} {a : SystemAnswers}

/-- `startInLoop` begins an attempt from a connector that waits, when it is wanted. -/
theorem startInLoop_goesOn {s : ConnectorLoop} (h : s.Waits) (hretries : s.retries = 0)
    (hreset : .resetChannel ∉ s.functors) (hstarts : .startInLoop ∉ s.functors)
    (hactive : s.active = none) (hfault : s.fault = none) (hstate : s.state = .kDisconnected)
    (hconnect : s.connect_ = true) (hmay : ¬ a.refusedAtOnce) (hadmits : s.admits a) :
    (s.after (ConnectorLoop.startInLoop a)).GoesOn false := by
  rw [ConnectorLoop.after_startInLoop hstate hconnect]
  exact (h.connect hretries hreset hstarts hactive hfault hmay hadmits).1

/-- The steps of the loop keep the connector going on. -/
theorem loop_continues {s s' : ConnectorLoop} {connected : Bool} (h : s.Steady connected)
    (hfault : s.fault = none) {label : ConnectorLabel} (hloop : label.ofLoop = true)
    (hcareful : s.LoopCareful label) (hs : s.step label = some s') :
    s.Continues s' connected := by
  cases ConnectorLoop.step_spec hs with
  | startStore | runStart | queueStart | stopStore | stopQueue | restart => contradiction
  | call _ hnext hfunctor =>
    have hactive : s.active = none := by
      by_contra hne
      obtain ⟨⟨b, hpc⟩, -⟩ := h.active hne
      simpa [hpc] using EventLoop.next_spec hnext
    exact h.call hfault hactive hnext hfunctor fun hstop => hcareful (hstop ▸ hfunctor)
  | next hcall hhandled hnext =>
    refine .of_handOvers (.inl ⟨hfault, h.next hcall hnext fun hne => ?_⟩) rfl
    obtain ⟨hpc, hattempt⟩ := h.active hne
    exact ⟨ConnectorLoop.handling_next (fun heq => hne (hhandled heq)) hnext hpc, hattempt⟩
  | @poll revents _ hreports hnext =>
    refine .of_handOvers (.inl ⟨hfault, h.next (by decide) hnext fun hne => ⟨?_, ?_⟩⟩) rfl
    · exact ⟨_, by rw [(EventLoop.next_spec hnext).2]⟩
    · rcases h.attempt with ⟨ch, hc, -⟩ | ⟨hwaits, -⟩
      · exact ⟨ch, hc⟩
      · cases revents with
        | none => contradiction
        | some events =>
          obtain ⟨ch, hc, entry, hentry, -⟩ := hreports
          exact absurd ((hwaits.channel ch hc).2.symm.trans hentry) (by simp)
  | handleEvent _ hactive => exact h.handleEvent hactive hfault
  | fire _ hadmits hmem =>
    have hpos : s.retries ≠ 0 := by
      have hlength := List.length_pos_of_mem hmem
      unfold ConnectorLoop.retries
      omega
    obtain ⟨hwaits, hconnected, hactive⟩ := h.waits fun ch hc => hpos (h.attempting hc).1
    obtain rfl : connected = false := by
      cases connected with
      | false => rfl
      | true => exact absurd (hconnected rfl).1 hpos
    obtain ⟨hfired, hretries⟩ := hwaits.fire hmem
    obtain ⟨hgoes, hlog⟩ := hfired.connect hretries (hwaits.timers (List.ne_nil_of_mem hmem)) h.starts
      hactive hfault hcareful hadmits
    exact .of_handOvers hgoes hlog
  | quit => exact .of_handOvers (.inl ⟨hfault, h.quit⟩) rfl

/-- `start` on the loop thread is `startInLoop` with `connect_` set. -/
theorem start_eq {s : ConnectorLoop} (h : c.start a = some s) :
    c.connector.admits a ∧
      s = ({ c.connector with
        connect_ := true
        starts := c.connector.starts + 1
        starting := c.connector.starting + 1 - 1 } : ConnectorLoop).after
          (ConnectorLoop.startInLoop a) := by
  obtain ⟨s₁, hstore, hrun⟩ := Option.bind_eq_some_iff.mp h
  cases ConnectorLoop.step_spec hstore
  cases ConnectorLoop.step_spec hrun with
  | runStart _ hadmits => exact ⟨hadmits, rfl⟩

/-- `stop` clears `connect_` and queues a `stopInLoop`. -/
theorem stopConnector_eq {s : ConnectorLoop} (h : c.stopConnector = some s) :
    ∃ stopping count, s = { c.connector with
      connect_ := false
      stopping := stopping
      loop := c.connector.loop.enqueue count .stopInLoop } := by
  obtain ⟨s₁, hstore, hqueue⟩ := Option.bind_eq_some_iff.mp h
  cases ConnectorLoop.step_spec hstore
  cases ConnectorLoop.step_spec hqueue
  exact ⟨_, _, rfl⟩

/-- A careful `connect` begins an attempt from a connector that waits. -/
theorem connect_goesOn (h : c.connector.Steady c.connection_) (hfault : c.connector.fault = none)
    (hcareful : c.Careful (.connect a)) {s : ConnectorLoop} (hs : c.start a = some s) :
    s.GoesOn c.connection_ := by
  obtain ⟨hstate, hretries, hmay⟩ := hcareful
  obtain ⟨hadmits, rfl⟩ := start_eq hs
  obtain ⟨hwaits, hconnected, hactive⟩ := h.waits fun ch hc => by simp [hc.state] at hstate
  have hnone : c.connection_ = false := by
    by_contra hne
    rw [Bool.not_eq_false] at hne
    simp [(hconnected hne).2] at hstate
  have hreset : .resetChannel ∉ c.connector.functors := fun hmem => by
    have hpending := hwaits.pending hmem
    simp [hretries, hstate] at hpending
  rw [hnone]
  exact startInLoop_goesOn (hwaits.of_same rfl rfl rfl rfl rfl rfl) hretries hreset h.starts hactive hfault
    hstate rfl hmay hadmits

/-- A careful restart begins an attempt from a connector that waits. -/
theorem restart_goesOn (h : c.connector.Steady c.connection_) (hfault : c.connector.fault = none)
    (hconnection : c.connection_ = true) (hreset : .resetChannel ∉ c.connector.functors)
    (hmay : ¬ a.refusedAtOnce) {s : ConnectorLoop} (hs : c.connector.step (.restart a) = some s) :
    s.GoesOn false := by
  cases ConnectorLoop.step_spec hs with
  | restart _ hadmits =>
    obtain ⟨hwaits, hconnected, hactive⟩ := h.waits fun ch hc => by
      simp [(h.attempting hc).2] at hconnection
    exact startInLoop_goesOn (hwaits.restarting hreset) (hconnected hconnection).1 hreset h.starts hactive
      hfault rfl rfl hmay hadmits

/-- Every careful step keeps the connector of a client going on. -/
theorem goesOn_step (h : c.connector.GoesOn c.connection_) {label : ClientLabel}
    (hcareful : c.Careful label) (hs : c.step label = some c') :
    c'.connector.GoesOn c'.connection_ := by
  obtain ⟨hfault, hs⟩ := Option.ite_none_left_eq_some.mp hs
  rw [not_not] at hfault
  obtain ⟨-, hsteady⟩ := h.resolve_right fun hfatal => by simp [hfault] at hfatal
  cases label with
  | connect a =>
    obtain ⟨-, hs⟩ := Option.ite_none_right_eq_some.mp hs
    obtain ⟨s, hstart, rfl⟩ := Option.map_eq_some_iff.mp hs
    exact connect_goesOn hsteady hfault hcareful hstart
  | disconnect =>
    obtain ⟨-, hs⟩ := Option.ite_none_right_eq_some.mp hs
    obtain rfl := Option.some.inj hs
    exact h
  | stop =>
    obtain ⟨-, hs⟩ := Option.ite_none_right_eq_some.mp hs
    obtain ⟨s, hstop, rfl⟩ := Option.map_eq_some_iff.mp hs
    obtain ⟨stopping, count, rfl⟩ := stopConnector_eq hstop
    exact .inl ⟨hfault, hsteady.stop stopping count⟩
  | enableRetry =>
    obtain rfl := Option.some.inj hs
    exact h
  | removeConnection a =>
    obtain ⟨hguard, hs⟩ := Option.ite_none_right_eq_some.mp hs
    rw [Bool.and_eq_true] at hguard
    dsimp only at hs
    split at hs
    · rename_i hretry
      rw [Bool.and_eq_true] at hretry
      obtain ⟨hreset, hmay⟩ := hcareful hretry.1 hretry.2
      obtain ⟨s, hrestart, rfl⟩ := Option.map_eq_some_iff.mp hs
      exact restart_goesOn hsteady hfault hguard.1 hreset hmay hrestart
    · obtain rfl := Option.some.inj hs
      obtain ⟨hwaits, -, hactive⟩ := hsteady.waits fun ch hc => by
        simp [(hsteady.attempting hc).2] at hguard
      exact hwaits.goesOn hactive hsteady.starts hfault
  | loop label =>
    obtain ⟨hloop, hs⟩ := Option.ite_none_right_eq_some.mp hs
    obtain ⟨s, hstep, rfl⟩ := Option.map_eq_some_iff.mp hs
    exact loop_continues hsteady hfault hloop hcareful hstep

/-- A connector that goes on has failed no assertion. -/
theorem asserts_of_goesOn (h : c.connector.GoesOn c.connection_) : c.Asserts :=
  ⟨h.imp (fun hgoes => hgoes.1) (fun hfatal => hfatal.1), h.held_le⟩

end TcpClient

/-- In every run in which the connector is used with care, no assertion fails and at most one socket is
held. -/
theorem client_asserts (labels : List ClientLabel)
    (h : Along TcpClient.step TcpClient.Careful .constructed labels) :
    Everywhere TcpClient.step TcpClient.Asserts .constructed labels := by
  refine everywhere_of_along (I := fun c => c.connector.GoesOn c.connection_)
    (fun _ hs => TcpClient.asserts_of_goesOn hs)
    (fun _ _ _ hs hcareful hstep => TcpClient.goesOn_step hs hcareful hstep) ?_ h
  refine .inl ⟨rfl, .inr ⟨?_, (fun hc => nomatch hc)⟩, fun hne => absurd rfl hne, List.not_mem_nil⟩
  exact ⟨rfl, (fun ch hc => nomatch hc), fun hne => absurd rfl hne, fun hne => absurd rfl hne,
    List.Pairwise.nil, Nat.zero_le 1, fun hmem => absurd hmem List.not_mem_nil⟩

/-- A client that connects, is asked to retry, and restarts its connector when the connection is closed. -/
theorem client_asserts_restart :
    Everywhere TcpClient.step TcpClient.Asserts .constructed
      [.enableRetry, .connect (.connects 5 EINPROGRESS), .loop (.move .enter .silent),
        .loop (.move .test .silent), .loop (.poll (some EPOLLOUT)), .loop (.handleEvent .silent),
        .loop (.move .handled .silent), .loop (.move .swap .silent), .loop (.move .call .silent),
        .loop (.move .finish .silent), .loop (.move .test .silent), .loop (.poll none),
        .removeConnection (.connects 6 EINPROGRESS)] :=
  client_asserts _ (by decide)

/-- `::connect` fails at once: `retry` takes out a channel that was never made. -/
theorem client_notAsserts_refused :
    ¬ Everywhere TcpClient.step TcpClient.Asserts .constructed
      [.connect (.connects 5 ECONNREFUSED)] := by
  decide

end CcMuduo
