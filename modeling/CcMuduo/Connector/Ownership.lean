import CcMuduo.Connector.Attempt

/-!
# Who owns the sockets

Every socket that `connect()` creates is closed once or handed over once, and the connector does nothing
more with it then; until then it belongs to the attempt in progress. This holds as long as each step
that ends an attempt takes the channel out once. `retry` takes it out itself, so a path that has already
done so, or has no channel yet, does it once too often: a failed write event, `stopInLoop` during an
attempt, and an immediate failure of `::connect`.
-/

namespace CcMuduo

open Foundation

/-- Every descriptor that the connector used was one of its sockets at that time. The latest action
comes first. -/
def Proper : List SocketAction → Prop
  | [] => True
  | .close fd :: past | .handOver fd :: past | .epollCtl _ fd :: past => fd ∈ held past ∧ Proper past
  | .socket _ :: past | .attempt :: past => Proper past

instance Proper.decidable : DecidablePred Proper
  | [] => isTrue trivial
  | .close fd :: past | .handOver fd :: past | .epollCtl _ fd :: past =>
    haveI := Proper.decidable past
    inferInstanceAs (Decidable (fd ∈ held past ∧ Proper past))
  | .socket _ :: past | .attempt :: past => Proper.decidable past

namespace ConnectorLoop

variable (s : ConnectorLoop)

/-- Every socket is accounted for: those that were not closed or handed over belong to the attempt in
progress. -/
structure Owns : Prop where
  proper : Proper s.log
  accounted : ∀ fd ∈ held s.log, s.state = .kConnecting ∧ ∃ c ∈ s.channel, c.fd = fd ∧ c.index = .kAdded

instance : DecidablePred Owns := fun s =>
  decidable_of_iff (Proper s.log ∧ ∀ fd ∈ held s.log, s.state = .kConnecting ∧
    ∃ c ∈ s.channel, c.fd = fd ∧ c.index = .kAdded) ⟨fun h => ⟨h.1, h.2⟩, fun h => ⟨h.1, h.2⟩⟩

/-- The answer of `::connect` is not one to try again after, and it begins an attempt only when the
last channel is gone. -/
def MayConnect (a : SystemAnswers) : Prop :=
  a.socket ≠ none → a.connect ∉ retryErrnos ∧
    (a.connect ∈ connectingErrnos → s.channel = none ∧ .resetChannel ∉ s.functors)

/-- The write event of an attempt finds no error and no self-connection, and the connection is still
wanted. -/
def MayComplete (a : SystemAnswers) : Prop :=
  s.state = .kConnecting → a.soError = 0 ∧ a.selfConnect = false ∧ s.connect_ = true

/-- The step takes no channel out twice, or without having one. -/
def TakesOutOnce : ConnectorLabel → Prop
  | .startRun true a => s.state = .kDisconnected → s.connect_ = true → s.MayConnect a
  | .restart a => s.registered = false ∧ s.MayConnect a
  | .move .call a =>
    (s.nextFunctor = some .startInLoop → s.state = .kDisconnected → s.connect_ = true → s.MayConnect a) ∧
      (s.nextFunctor = some .stopInLoop → s.state = .kConnecting → s.channel = none)
  | .handleEvent a => s.active.any writes = true → s.MayComplete a
  | .fire _ a => s.MayConnect a
  | _ => True

instance (a : SystemAnswers) : Decidable (s.MayConnect a) :=
  inferInstanceAs (Decidable (a.socket ≠ none → a.connect ∉ retryErrnos ∧
    (a.connect ∈ connectingErrnos → s.channel = none ∧ .resetChannel ∉ s.functors)))

instance (a : SystemAnswers) : Decidable (s.MayComplete a) :=
  inferInstanceAs (Decidable
    (s.state = .kConnecting → a.soError = 0 ∧ a.selfConnect = false ∧ s.connect_ = true))

instance : DecidablePred s.TakesOutOnce
  | .startRun true a =>
    inferInstanceAs (Decidable (s.state = .kDisconnected → s.connect_ = true → s.MayConnect a))
  | .restart a => inferInstanceAs (Decidable (s.registered = false ∧ s.MayConnect a))
  | .move .call a => inferInstanceAs (Decidable ((s.nextFunctor = some .startInLoop →
      s.state = .kDisconnected → s.connect_ = true → s.MayConnect a) ∧
    (s.nextFunctor = some .stopInLoop → s.state = .kConnecting → s.channel = none)))
  | .handleEvent a => inferInstanceAs (Decidable (s.active.any writes = true → s.MayComplete a))
  | .fire _ a => inferInstanceAs (Decidable (s.MayConnect a))
  | .startStore | .startRun false _ | .stopStore | .stopQueue | .poll _ | .quit | .move .enter _
  | .move .test _ | .move .poll _ | .move .handleRead _ | .move .handled _ | .move .swap _
  | .move .finish _ => inferInstanceAs (Decidable True)

/-- No attempt is in progress. -/
structure Resting : Prop where
  channel : ∀ c ∈ s.channel, s.poller.interest c.fd = none
  holds : held s.log = []

/-- The invariant of a run. -/
structure OwnsInv : Prop where
  proper : Proper s.log
  attempt : (∃ c, s.Attempting c) ∨ s.Resting
  active : s.active ≠ none → (∃ active, s.loop.pc = .handling active) ∧ ∃ c, s.Attempting c

variable {s} {s' : ConnectorLoop} {a : SystemAnswers} {c : Channel}

/-- Without an attempt no socket is held, and no event waits. -/
theorem OwnsInv.idle (h : s.OwnsInv) (hnone : ∀ c, ¬ s.Attempting c) : s.Resting ∧ s.active = none := by
  refine ⟨h.attempt.resolve_left fun ⟨c, hc⟩ => hnone c hc, ?_⟩
  by_contra hne
  obtain ⟨-, c, hc⟩ := h.active hne
  exact hnone c hc

/-- No attempt is in progress when the channel is not registered. -/
theorem OwnsInv.idle_of_registered (h : s.OwnsInv) (hregistered : s.registered = false) :
    s.Resting ∧ s.active = none :=
  h.idle fun c hc => by simp [hc.registered] at hregistered

/-- No attempt is in progress without a channel. -/
theorem OwnsInv.idle_of_channel (h : s.OwnsInv) (hchannel : s.channel = none) :
    s.Resting ∧ s.active = none :=
  h.idle fun c hc => by simp [hc.channel] at hchannel

/-- The invariant says that every socket is accounted for. -/
theorem OwnsInv.owns (h : s.OwnsInv) : s.Owns := by
  refine ⟨h.proper, fun fd hfd => ?_⟩
  rcases h.attempt with ⟨c, hc⟩ | hrest
  · rw [hc.holds, List.mem_singleton] at hfd
    exact ⟨hc.state, c, hc.channel, hfd.symm, hc.index⟩
  · rw [hrest.holds] at hfd
    contradiction

/-- A step that touches neither the attempt nor any socket keeps the invariant. -/
theorem OwnsInv.of_same (h : s.OwnsInv) (hchannel : s'.channel = s.channel)
    (hstate : s'.state = s.state) (hpoller : s'.poller = s.poller) (hheld : held s'.log = held s.log)
    (hproper : Proper s'.log)
    (hreset : .resetChannel ∈ s'.functors → .resetChannel ∈ s.functors)
    (hactive : s'.active ≠ none → s.active ≠ none ∧
      ((∃ b, s.loop.pc = .handling b) → ∃ b, s'.loop.pc = .handling b)) : s'.OwnsInv := by
  have hattempt {c : Channel} (hc : s.Attempting c) : s'.Attempting c :=
    hc.of_same hchannel hstate hheld hreset
  refine ⟨hproper, ?_, fun hne => ?_⟩
  · rcases h.attempt with ⟨c, hc⟩ | hrest
    · exact .inl ⟨c, hattempt hc⟩
    · refine .inr ⟨fun c hc => ?_, hheld.trans hrest.holds⟩
      rw [hchannel] at hc
      rw [hpoller]
      exact hrest.channel c hc
  · obtain ⟨hold, hpc⟩ := hactive hne
    obtain ⟨hhandling, c, hc⟩ := h.active hold
    exact ⟨hpc hhandling, c, hattempt hc⟩

/-- A fault changes nothing else. -/
theorem OwnsInv.fault (h : s.OwnsInv) (fault : Option ConnectorFault) :
    ({ s with fault := fault } : ConnectorLoop).OwnsInv :=
  h.of_same rfl rfl rfl rfl h.proper id fun hne => ⟨hne, id⟩

/-- An attempt begins. -/
theorem OwnsInv.attempting (h : s.OwnsInv) (hchannel : s.channel = none)
    (hreset : .resetChannel ∉ s.functors) (address fd : ℕ) :
    ((s.created fd).attempting address fd).OwnsInv := by
  obtain ⟨hrest, hactive⟩ := h.idle_of_channel hchannel
  have hholds : held (.socket fd :: .attempt :: s.log) = [fd] := congrArg (fd :: ·) hrest.holds
  exact ⟨⟨hholds ▸ List.mem_singleton_self fd, h.proper⟩, .inl ⟨_, rfl, rfl, rfl, hholds, hreset⟩,
    fun hne => absurd hactive hne⟩

/-- `connect` keeps the invariant when it does not fail at once. -/
theorem OwnsInv.connect (h : s.OwnsInv) (hmay : s.MayConnect a) (hadmits : s.admits a) :
    (s.after (connect a)).OwnsInv := by
  cases hsocket : a.socket with
  | none =>
    rw [after_of_error (exec_connect_fatal hsocket)]
    exact (h.of_same rfl rfl rfl rfl h.proper id fun hne => ⟨hne, id⟩ :
      OwnsInv { s with log := .attempt :: s.log }).fault _
  | some fd =>
    obtain ⟨hretry, hconnecting⟩ := hmay (by simp [hsocket])
    by_cases herrno : a.connect ∈ connectingErrnos
    · obtain ⟨hchannel, hreset⟩ := hconnecting herrno
      obtain ⟨-, hset⟩ := hadmits fd hsocket
      have hexec := (exec_connect_connecting hsocket herrno).trans
        (exec_connecting (s := s.created fd) hchannel List.mem_cons_self hset)
      rw [after_of_ok hexec]
      exact h.attempting hchannel hreset _ _
    · rw [after_of_ok (exec_connect_close hsocket herrno hretry)]
      have hheld : held (.close fd :: .socket fd :: .attempt :: s.log) = held s.log :=
        List.erase_cons_head fd (held s.log)
      exact h.of_same rfl rfl rfl hheld ⟨List.mem_cons_self, h.proper⟩ id fun hne => ⟨hne, id⟩

/-- `startInLoop` keeps the invariant. -/
theorem OwnsInv.startInLoop (h : s.OwnsInv)
    (hmay : s.state = .kDisconnected → s.connect_ = true → s.MayConnect a) (hadmits : s.admits a) :
    (s.after (startInLoop a)).OwnsInv := by
  by_cases hstate : s.state = .kDisconnected
  · cases hconnect : s.connect_ with
    | true =>
      rw [after_startInLoop hstate hconnect]
      exact h.connect (hmay hstate hconnect) hadmits
    | false =>
      have hexec := exec_startInLoop (a := a) hstate
      rw [if_neg (by simp [hconnect])] at hexec
      rw [after_of_ok hexec]
      exact h
  · rw [after_of_error (exec_startInLoop_fault hstate)]
    exact h.fault _

/-- The invariant between attempts. -/
theorem OwnsInv.of_resting (hproper : Proper s.log) (hheld : held s.log = [])
    (hchannel : ∀ c ∈ s.channel, s.poller.interest c.fd = none) (hactive : s.active = none) :
    s.OwnsInv :=
  ⟨hproper, .inr ⟨hchannel, hheld⟩, fun hne => absurd hactive hne⟩

/-- `stopInLoop` keeps the invariant when it finds no channel. -/
theorem OwnsInv.stopInLoop (h : s.OwnsInv) (hmay : s.state = .kConnecting → s.channel = none) :
    (s.after (stopInLoop a)).OwnsInv := by
  by_cases hstate : s.state = .kConnecting
  · have hchannel := hmay hstate
    obtain ⟨hrest, hactive⟩ := h.idle_of_channel hchannel
    rw [after_of_error (exec_stopInLoop_none hstate hchannel)]
    exact .of_resting h.proper hrest.holds hrest.channel hactive
  · rw [after_of_ok (exec_stopInLoop_other hstate)]
    exact h

/-- `restart` keeps the invariant when no attempt is in progress. -/
theorem OwnsInv.restart (h : s.OwnsInv) (hregistered : s.registered = false) (hmay : s.MayConnect a)
    (hadmits : s.admits a) : (s.restarting.after (ConnectorLoop.startInLoop a)).OwnsInv := by
  obtain ⟨hrest, hactive⟩ := h.idle_of_registered hregistered
  have hinv : s.restarting.OwnsInv := .of_resting h.proper hrest.holds hrest.channel hactive
  exact hinv.startInLoop (fun _ _ => hmay) hadmits

/-- The event of a successful attempt hands the socket over. -/
theorem Attempting.ownsInv_handleWrite (h : s.Attempting c) (hproper : Proper s.log)
    (hactive : s.active = none) (hmay : s.MayComplete a) : (s.after (handleWrite a)).OwnsInv := by
  obtain ⟨herror, hself, hconnect⟩ := hmay h.state
  rw [after_of_ok (exec_handleWrite_success h.state h.channel h.index herror hself hconnect)]
  have hfd := h.mem_held
  refine .of_resting ⟨hfd, hfd, hproper⟩ h.held_erase ?_ hactive
  rintro c' hc'
  obtain rfl := Option.some.inj hc'
  exact Function.update_self _ _ _

/-- The event of a failed attempt closes the socket. -/
theorem Attempting.ownsInv_handleError (h : s.Attempting c) (hproper : Proper s.log)
    (hactive : s.active = none) : (s.after (handleError a)).OwnsInv := by
  have hfd := h.mem_held
  rw [after_of_ok (exec_handleError_added h.state h.channel h.index hfd)]
  refine .of_resting ⟨hfd, hfd, hfd, hfd, hproper⟩ h.held_erase ?_ hactive
  rintro c' hc'
  obtain rfl := Option.some.inj hc'
  exact Function.update_self _ _ _

/-- The event of the channel keeps the invariant. -/
theorem OwnsInv.handleEvent (h : s.OwnsInv) {revents : Mask} (hactive : s.active = some revents)
    (hmay : s.active.any writes = true → s.MayComplete a) :
    (({ s with active := none } : ConnectorLoop).after (handleEventWithGuard a revents)).OwnsInv := by
  obtain ⟨-, c, hc⟩ := h.active (by simp [hactive])
  set s₁ : ConnectorLoop := { s with active := none }
  have hc₁ : s₁.Attempting c := hc.of_same rfl rfl rfl id
  have hinv : s₁.OwnsInv := ⟨h.proper, .inl ⟨c, hc₁⟩, fun hne => absurd rfl hne⟩
  exact after_handleEventWithGuard (P := OwnsInv) revents hinv (hinv.fault _)
    (hc₁.ownsInv_handleError h.proper rfl) fun hwrites =>
      hc₁.ownsInv_handleWrite h.proper rfl (hmay (by simpa [hactive] using hwrites))

/-- A step of the loop thread keeps the invariant as far as the loop goes. -/
theorem OwnsInv.next (h : s.OwnsInv) {m : EventLoop.Move} {loop : EventLoop ℕ ConnectorFunctor}
    (hhandled : m = .handled → s.active = none) (hnext : s.loop.next m = some loop) :
    ({ s with loop := loop } : ConnectorLoop).OwnsInv := by
  refine ⟨h.proper, h.attempt.imp (fun ⟨c, hc⟩ => ⟨c, hc.next hnext s.active⟩)
    fun hrest => ⟨hrest.channel, hrest.holds⟩, fun hne => ?_⟩
  obtain ⟨hhandling, c, hc⟩ := h.active hne
  exact ⟨handling_next (fun hm => hne (hhandled hm)) hnext hhandling, c, hc.next hnext s.active⟩

/-- A functor keeps the invariant. -/
theorem OwnsInv.call (h : s.OwnsInv) {loop : EventLoop ℕ ConnectorFunctor}
    (hnext : s.loop.next .call = some loop) (hmay : s.TakesOutOnce (.move .call a))
    (hadmits : s.admits a) {functor : ConnectorFunctor} (hfunctor : s.nextFunctor = some functor) :
    (({ s with loop := loop } : ConnectorLoop).after (execute a functor)).OwnsInv := by
  obtain ⟨head, hhead, hfunctors⟩ := functors_call hnext
  obtain rfl := Option.some.inj (hhead.symm.trans hfunctor)
  have hinv := h.next (fun hm => absurd hm (by decide)) hnext
  cases head with
  | startInLoop =>
    refine hinv.startInLoop (fun hstate hconnect hsocket => ?_) hadmits
    obtain ⟨hretry, hconnecting⟩ := hmay.1 hfunctor hstate hconnect hsocket
    refine ⟨hretry, fun herrno => ?_⟩
    obtain ⟨hchannel, hreset⟩ := hconnecting herrno
    exact ⟨hchannel, fun hmem => hreset (hfunctors ▸ List.mem_cons_of_mem _ hmem)⟩
  | stopInLoop => exact hinv.stopInLoop (hmay.2 hfunctor)
  | resetChannel =>
    obtain ⟨hrest, hactive⟩ := h.idle fun c hc => hc.keeps (hfunctors ▸ List.mem_cons_self)
    exact .of_resting h.proper hrest.holds (fun c hc => nomatch hc) hactive
  | insertTimer delayMs => exact hinv.of_same rfl rfl rfl rfl h.proper id fun hne => ⟨hne, id⟩

/-- Only the channel of an attempt is found active. -/
theorem OwnsInv.poll (h : s.OwnsInv) {revents : Option Mask} {loop : EventLoop ℕ ConnectorFunctor}
    (hreports : s.reports revents) (hnext : s.loop.next .poll = some loop) :
    ({ s with loop := loop, active := revents } : ConnectorLoop).OwnsInv := by
  rcases h.attempt with ⟨c, hc⟩ | hrest
  · have hattempt := hc.next hnext revents
    exact ⟨h.proper, .inl ⟨c, hattempt⟩,
      fun _ => ⟨⟨_, by rw [(EventLoop.next_spec hnext).2]⟩, c, hattempt⟩⟩
  · refine .of_resting h.proper hrest.holds hrest.channel ?_
    cases revents with
    | none => rfl
    | some events =>
      obtain ⟨c, hc, entry, hentry, -⟩ := hreports
      exact absurd ((hrest.channel c hc).symm.trans hentry) (by simp)

/-- Every step that takes no channel out once too often keeps the invariant. -/
theorem OwnsInv.step (h : s.OwnsInv) {label : ConnectorLabel} (hmay : s.TakesOutOnce label)
    (hs : s.step label = some s') : s'.OwnsInv := by
  cases step_spec hs with
  | startStore | stopStore | quit => exact h.of_same rfl rfl rfl rfl h.proper id fun hne => ⟨hne, id⟩
  | runStart _ hadmits =>
    have hinv : OwnsInv { s with starting := s.starting - 1 } :=
      h.of_same rfl rfl rfl rfl h.proper id fun hne => ⟨hne, id⟩
    exact hinv.startInLoop hmay hadmits
  | queueStart | stopQueue =>
    exact h.of_same rfl rfl rfl rfl h.proper
      (fun hmem => mem_functors_of_enqueue hmem (by decide)) fun hne => ⟨hne, id⟩
  | restart _ hadmits => exact h.restart hmay.1 hmay.2 hadmits
  | call hadmits hnext hfunctor => exact h.call hnext hmay hadmits hfunctor
  | next _ hhandled hnext => exact h.next hhandled hnext
  | poll hreports hnext => exact h.poll hreports hnext
  | handleEvent _ hactive => exact h.handleEvent hactive hmay
  | @fire delayMs a b _ hadmits =>
    have hinv : OwnsInv { s with timers := s.timers.erase delayMs } :=
      h.of_same rfl rfl rfl rfl h.proper id fun hne => ⟨hne, id⟩
    exact hinv.connect hmay hadmits

end ConnectorLoop

/-- In every run whose steps take no channel out once too often, every socket is accounted for in every
state. -/
theorem sockets_owned (labels : List ConnectorLabel)
    (h : Along ConnectorLoop.step ConnectorLoop.TakesOutOnce .constructed labels) :
    Everywhere ConnectorLoop.step ConnectorLoop.Owns .constructed labels := by
  refine everywhere_of_along (I := ConnectorLoop.OwnsInv) (fun _ hs => hs.owns)
    (fun _ _ _ hs hmay hstep => hs.step hmay hstep) ?_ h
  exact .of_resting trivial rfl (fun c hc => nomatch hc) rfl

/-- An attempt that succeeds takes its channel out once. -/
theorem sockets_owned_success :
    Everywhere ConnectorLoop.step ConnectorLoop.Owns .constructed
      [.startStore, .startRun true (.connects 5 EINPROGRESS), .move .enter .silent, .move .test .silent,
        .poll (some EPOLLOUT), .handleEvent .silent] :=
  sockets_owned _ (by decide)

/-- A `stop` during an attempt: `stopInLoop` closes the socket, and `retry` registers it once more. -/
theorem sockets_notOwned_stop :
    ¬ Everywhere ConnectorLoop.step ConnectorLoop.Owns .constructed
      [.startStore, .startRun true (.connects 5 EINPROGRESS), .stopStore, .stopQueue, .move .enter .silent,
        .move .test .silent, .poll none, .move .handled .silent, .move .swap .silent,
        .move .call .silent] := by
  decide

end CcMuduo
