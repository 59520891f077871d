import CcMuduo.Connector

/-!
# What the calls of the connector do

Taking the channel out of the poller, trying again and beginning an attempt, each from the states in
which the connector meets them: with a registered channel, with a channel that was taken out but not
reset yet, and with none.
-/

namespace CcMuduo

open Foundation

namespace EpollPoller

/-- No record of a descriptor is left. -/
def forget (p : EpollPoller) (fd : ℕ) : EpollPoller :=
  ⟨Function.update p.channels fd none, Function.update p.interest fd none⟩

end EpollPoller

namespace Channel

variable {c : Channel} {p : EpollPoller}

/-- `disableAll` on a registered channel takes it out of the kernel set. -/
theorem disableAll_added (h : c.index = .kAdded) :
    c.disableAll p = .ok ({ p with interest := Function.update p.interest c.fd none },
      { c with events := kNoneEvent, index := .kDeleted }) := by
  obtain ⟨address, fd, events, index⟩ := c
  obtain rfl : index = .kAdded := h
  cases hset : p.interest fd with
  | some entry =>
    simp [disableAll, EpollPoller.updateChannel, isNoneEvent, EpollPoller.update, hset]
  | none =>
    have hself : Function.update p.interest fd none = p.interest := by
      rw [← hset]
      exact Function.update_eq_self fd p.interest
    simp [disableAll, EpollPoller.updateChannel, isNoneEvent, EpollPoller.update, hset, hself]

/-- `disableAll` on a channel that was taken out adds it to the kernel set again. -/
theorem disableAll_new (h : c.index = .kNew) (hset : p.interest c.fd = none) :
    c.disableAll p = .ok
      (⟨Function.update p.channels c.fd (some c.address),
        Function.update p.interest c.fd (some (kNoneEvent, c.address))⟩,
      { c with events := kNoneEvent, index := .kAdded }) := by
  obtain ⟨address, fd, events, index⟩ := c
  obtain rfl : index = .kNew := h
  have hset : p.interest fd = none := hset
  simp [disableAll, EpollPoller.updateChannel, EpollPoller.update, hset]

/-- `remove` on a channel that is out of the kernel set forgets it. -/
theorem remove_deleted (h : c.index = .kDeleted) :
    c.remove p = .ok ({ p with channels := Function.update p.channels c.fd none },
      { c with index := .kNew }) := by
  simp [remove, EpollPoller.removeChannel, h]

/-- `remove` on a registered channel takes it out of the kernel set and forgets it. -/
theorem remove_added (h : c.index = .kAdded) (hset : p.interest c.fd ≠ none) :
    c.remove p = .ok (p.forget c.fd, { c with index := .kNew }) := by
  obtain ⟨entry, hentry⟩ := Option.ne_none_iff_exists'.mp hset
  simp [remove, EpollPoller.removeChannel, h, EpollPoller.update, hentry, EpollPoller.forget]

/-- `enableWriting` on a new channel registers it. -/
theorem enableWriting_new (h : c.index = .kNew) (hset : p.interest c.fd = none) :
    c.enableWriting p = .ok
      (⟨Function.update p.channels c.fd (some c.address),
        Function.update p.interest c.fd (some (c.events ||| kWriteEvent, c.address))⟩,
      { c with events := c.events ||| kWriteEvent, index := .kAdded }) := by
  obtain ⟨address, fd, events, index⟩ := c
  obtain rfl : index = .kNew := h
  have hset : p.interest fd = none := hset
  simp [enableWriting, EpollPoller.updateChannel, EpollPoller.update, hset]

end Channel

namespace ConnectorLoop

variable {a : SystemAnswers} {s : ConnectorLoop} {c : Channel}

/-- The state behind a completed computation. -/
theorem after_of_ok {x : ConnectorM PUnit} {s' : ConnectorLoop} (h : exec x s = (.ok ⟨⟩, s')) :
    s.after x = s' := by
  unfold after
  rw [h]

/-- The state behind a failed computation. -/
theorem after_of_error {x : ConnectorM PUnit} {s' : ConnectorLoop} {fault : ConnectorFault}
    (h : exec x s = (.error fault, s')) : s.after x = { s' with fault := some fault } := by
  unfold after
  rw [h]

/-- A queued functor waits behind all others. -/
theorem functors_enqueue (s : ConnectorLoop) (count : ℕ) (functor : ConnectorFunctor) :
    (s.loop.enqueue count functor).waiting.map Prod.snd = s.functors ++ [functor] := by
  rw [EventLoop.waiting_enqueue, List.map_append]
  rfl

/-- Queueing a functor adds no other. -/
theorem mem_functors_of_enqueue {count : ℕ} {functor other : ConnectorFunctor}
    (h : functor ∈ (s.loop.enqueue count other).waiting.map Prod.snd) (hne : functor ≠ other) :
    functor ∈ s.functors := by
  rw [functors_enqueue] at h
  exact (List.mem_append.mp h).resolve_right fun hmem => hne (List.mem_singleton.mp hmem)

/-- A call takes the next functor out of the waiting ones. -/
theorem functors_call {loop : EventLoop ℕ ConnectorFunctor} (h : s.loop.next .call = some loop) :
    ∃ functor, s.nextFunctor = some functor ∧
      s.functors = functor :: functors { s with loop := loop } := by
  have hwaiting := EventLoop.waiting_next h
  rw [if_pos rfl] at hwaiting
  obtain ⟨e, hnext, hwaiting⟩ := hwaiting
  exact ⟨e.2, by rw [nextFunctor, hnext]; rfl, by rw [functors, hwaiting]; rfl⟩

/-- The other steps of the loop thread leave the waiting functors alone. -/
theorem functors_next {m : EventLoop.Move} {loop : EventLoop ℕ ConnectorFunctor} (hm : m ≠ .call)
    (h : s.loop.next m = some loop) : functors { s with loop := loop } = s.functors := by
  have hwaiting := EventLoop.waiting_next h
  rw [if_neg hm] at hwaiting
  exact congrArg (List.map Prod.snd) hwaiting

/-- Does the kernel take an `epoll_ctl` on the number? -/
def open_ (s : ConnectorLoop) (a : SystemAnswers) (fd : ℕ) : Prop := fd ∈ held s.log ∨ a.reused = true

/-- An `epoll_ctl` that the kernel takes, or a deletion. -/
theorem exec_epollCtl {operation : CtlOp} {fd : ℕ} (h : operation = .del ∨ s.open_ a fd) :
    exec (epollCtl a operation fd) s = (.ok ⟨⟩, { s with log := .epollCtl operation fd :: s.log }) := by
  have hpass : ¬ (fd ∉ held s.log ∧ a.reused = false ∧ operation ≠ .del) := by
    rintro ⟨hheld, hreused, hop⟩
    rcases h with rfl | hmem | hreuse
    · exact hop rfl
    · exact hheld hmem
    · simp [hreuse] at hreused
  unfold epollCtl record
  rw [exec_bind_ok (exec_modify _ _), exec_bind_ok (exec_get _)]
  simp [held, hpass]

/-- An `epoll_ctl` that the kernel refuses. -/
theorem exec_epollCtl_refused {operation : CtlOp} {fd : ℕ} (hop : operation ≠ .del)
    (h : ¬ s.open_ a fd) :
    exec (epollCtl a operation fd) s =
      (.error .fatal, { s with log := .epollCtl operation fd :: s.log }) := by
  unfold open_ at h
  rw [not_or, Bool.not_eq_true] at h
  unfold epollCtl record
  rw [exec_bind_ok (exec_modify _ _), exec_bind_ok (exec_get _)]
  simp [held, h, hop]

/-- `queueInLoop` puts the functor behind the waiting ones. -/
theorem exec_queueInLoop (cb : ConnectorFunctor) (s : ConnectorLoop) :
    exec (queueInLoop cb) s = (.ok ⟨⟩, { s with loop := s.loop.enqueue s.starts cb }) := rfl

/-- A call of the poller that completes. -/
theorem exec_onPoller {operation : Option CtlOp} {call : EpollPoller → Except Fault (EpollPoller × Channel)}
    {p : EpollPoller} {c' : Channel} (hop : ∀ op ∈ operation, op = .del ∨ s.open_ a c.fd)
    (hcall : call s.poller = .ok (p, c')) :
    exec (onPoller a operation c call) s =
      (.ok c', { s with
        poller := p
        channel := some c'
        log := operation.toList.map (.epollCtl · c.fd) ++ s.log }) := by
  unfold onPoller
  cases operation with
  | none =>
    simp only
    rw [exec_bind_ok (exec_get _), hcall]
    rfl
  | some op =>
    simp only
    rw [exec_bind_ok (exec_epollCtl (hop op rfl)), exec_bind_ok (exec_get _)]
    simp only [hcall]
    rfl

/-- The state behind `removeAndResetChannel`, with the operations it asked for, the latest first. -/
def detached (s : ConnectorLoop) (c : Channel) (operations : List CtlOp) : ConnectorLoop :=
  { s with
    poller := s.poller.forget c.fd
    channel := some { c with events := kNoneEvent, index := .kNew }
    loop := s.loop.enqueue s.starts .resetChannel
    log := operations.map (.epollCtl · c.fd) ++ s.log }

/-- The state behind the rest of `retry`. -/
def scheduled (s : ConnectorLoop) (fd delayMs : ℕ) : ConnectorLoop :=
  { s with
    retryDelayMs := min (s.retryDelayMs * 2) kMaxRetryDelayMs
    loop := s.loop.enqueue s.starts (.insertTimer delayMs)
    log := .close fd :: s.log }

/-- `removeAndResetChannel` with a registered channel. -/
theorem exec_removeAndResetChannel_added (hchannel : s.channel = some c) (hindex : c.index = .kAdded) :
    exec (removeAndResetChannel a) s = (.ok c.fd, s.detached c [.del]) := by
  have hop : ({ c with events := kNoneEvent } : Channel).updateOperation = .del := by
    simp [Channel.updateOperation, hindex, Channel.isNoneEvent]
  unfold removeAndResetChannel
  rw [exec_bind_ok (exec_get _), hchannel]
  simp only [hop]
  rw [exec_bind_ok (exec_onPoller (fun _ hdel => .inl (Option.some.inj hdel).symm)
    (Channel.disableAll_added hindex)),
    exec_bind_ok (exec_onPoller (fun _ hnone => by simp [Channel.removeOperation] at hnone)
      (Channel.remove_deleted rfl))]
  rfl

/-- `removeAndResetChannel` with a channel that was taken out, on a number that is open. -/
theorem exec_removeAndResetChannel_new (hchannel : s.channel = some c) (hindex : c.index = .kNew)
    (hset : s.poller.interest c.fd = none) (hopen : s.open_ a c.fd) :
    exec (removeAndResetChannel a) s = (.ok c.fd, s.detached c [.del, .add]) := by
  have hop : ({ c with events := kNoneEvent } : Channel).updateOperation = .add := by
    simp [Channel.updateOperation, hindex]
  unfold removeAndResetChannel
  rw [exec_bind_ok (exec_get _), hchannel]
  simp only [hop]
  rw [exec_bind_ok (exec_onPoller (fun _ _ => .inr hopen) (Channel.disableAll_new hindex hset)),
    exec_bind_ok (exec_onPoller (fun _ hdel => .inl (by simpa [Channel.removeOperation] using hdel.symm))
      (Channel.remove_added rfl (by simp))), exec_bind_ok (exec_queueInLoop _ _)]
  simp [detached, EpollPoller.forget, Channel.removeOperation]

/-- `removeAndResetChannel` with a channel that was taken out, on a number that is closed. -/
theorem exec_removeAndResetChannel_closed (hchannel : s.channel = some c) (hindex : c.index = .kNew)
    (hclosed : ¬ s.open_ a c.fd) :
    exec (removeAndResetChannel a) s =
      (.error .fatal, { s with log := .epollCtl .add c.fd :: s.log }) := by
  have hop : ({ c with events := kNoneEvent } : Channel).updateOperation = .add := by
    simp [Channel.updateOperation, hindex]
  have hrefused : exec (epollCtl a .add c.fd) s =
      (.error .fatal, { s with log := .epollCtl .add c.fd :: s.log }) :=
    exec_epollCtl_refused (by decide) hclosed
  have hcall : exec (onPoller a (some .add) c c.disableAll) s =
      (.error .fatal, { s with log := .epollCtl .add c.fd :: s.log }) := exec_bind_error hrefused _
  generalize ({ s with log := .epollCtl .add c.fd :: s.log } : ConnectorLoop) = s' at hcall ⊢
  unfold removeAndResetChannel
  rw [exec_bind_ok (exec_get _)]
  simp only [hchannel, hop]
  exact exec_bind_error hcall _

/-- `removeAndResetChannel` without a channel. -/
theorem exec_removeAndResetChannel_none (hchannel : s.channel = none) :
    exec (removeAndResetChannel a) s = (.error .noChannel, s) := by
  unfold removeAndResetChannel
  rw [exec_bind_ok (exec_get _), hchannel]
  rfl

/-- `retry` behind a completed `removeAndResetChannel`. -/
theorem exec_retry {s' : ConnectorLoop} {fd delayMs : ℕ}
    (h : exec (removeAndResetChannel a) s = (.ok fd, s')) :
    exec (retry a delayMs) s = (.ok ⟨⟩, s'.scheduled fd delayMs) := by
  unfold retry
  rw [exec_bind_ok h]
  rfl

/-- `retry` behind a failed `removeAndResetChannel`. -/
theorem exec_retry_error {s' : ConnectorLoop} {fault : ConnectorFault} {delayMs : ℕ}
    (h : exec (removeAndResetChannel a) s = (.error fault, s')) :
    exec (retry a delayMs) s = (.error fault, s') := by
  unfold retry
  exact exec_bind_error h _

/-- The state behind `connecting`. -/
def attempting (s : ConnectorLoop) (address fd : ℕ) : ConnectorLoop :=
  { s with
    state := .kConnecting
    channel := some ⟨address, fd, kNoneEvent ||| kWriteEvent, .kAdded⟩
    poller := ⟨Function.update s.poller.channels fd (some address),
      Function.update s.poller.interest fd (some (kNoneEvent ||| kWriteEvent, address))⟩
    log := .epollCtl .add fd :: s.log }

/-- `connecting` without a channel. -/
theorem exec_connecting {fd : ℕ} (hchannel : s.channel = none) (hheld : fd ∈ held s.log)
    (hset : s.poller.interest fd = none) :
    exec (connecting a fd) s = (.ok ⟨⟩, s.attempting a.address fd) := by
  unfold connecting
  rw [exec_bind_ok (exec_modify _ _), exec_bind_ok (exec_get _)]
  simp only [hchannel, Option.isSome_none, Bool.false_eq_true, if_false]
  rw [exec_bind_ok (exec_onPoller (fun _ _ => .inr (.inl hheld)) (Channel.enableWriting_new rfl hset))]
  rfl

/-- The state behind the creation of a socket. -/
def created (s : ConnectorLoop) (fd : ℕ) : ConnectorLoop :=
  { s with log := .socket fd :: .attempt :: s.log }

/-- `connect` when no socket can be created. -/
theorem exec_connect_fatal (hsocket : a.socket = none) :
    exec (connect a) s = (.error .fatal, { s with log := .attempt :: s.log }) := by
  unfold connect
  rw [hsocket]
  rfl

/-- `connect` behind an answer of the first kind. -/
theorem exec_connect_connecting {fd : ℕ} (hsocket : a.socket = some fd)
    (herrno : a.connect ∈ connectingErrnos) :
    exec (connect a) s = exec (connecting a fd) (s.created fd) := by
  unfold connect
  rw [hsocket]
  simp only [herrno, if_true]
  rfl

/-- `connect` behind any other answer. -/
theorem exec_connect_close {fd : ℕ} (hsocket : a.socket = some fd)
    (herrno : a.connect ∉ connectingErrnos) (hretry : a.connect ∉ retryErrnos) :
    exec (connect a) s =
      (.ok ⟨⟩, { s with log := .close fd :: .socket fd :: .attempt :: s.log }) := by
  unfold connect
  rw [hsocket]
  simp only [herrno, hretry, if_false]
  rfl

/-- `startInLoop` outside `kDisconnected`. -/
theorem exec_startInLoop_fault (hstate : s.state ≠ .kDisconnected) :
    exec (startInLoop a) s = (.error .notDisconnected, s) := by
  unfold startInLoop
  rw [exec_bind_ok (exec_get _)]
  simp only [hstate, ne_eq, not_false_eq_true, if_true]
  exact exec_bind_error (exec_throw _ _) _

/-- `startInLoop` in `kDisconnected`. -/
theorem exec_startInLoop (hstate : s.state = .kDisconnected) :
    exec (startInLoop a) s = if s.connect_ then exec (connect a) s else (.ok ⟨⟩, s) := by
  unfold startInLoop
  rw [exec_bind_ok (exec_get _)]
  simp only [hstate, ne_eq, not_true_eq_false, if_false]
  cases s.connect_ <;> rfl

/-- `stopInLoop` outside `kConnecting`. -/
theorem exec_stopInLoop_other (hstate : s.state ≠ .kConnecting) :
    exec (stopInLoop a) s = (.ok ⟨⟩, s) := by
  unfold stopInLoop
  rw [exec_bind_ok (exec_get _)]
  simp only [hstate, if_false]
  rfl

/-- `stopInLoop` in `kConnecting` without a channel. -/
theorem exec_stopInLoop_none (hstate : s.state = .kConnecting) (hchannel : s.channel = none) :
    exec (stopInLoop a) s = (.error .noChannel, { s with state := .kDisconnected }) := by
  have hremove : exec (removeAndResetChannel a) { s with state := .kDisconnected } =
      (.error .noChannel, { s with state := .kDisconnected }) :=
    exec_removeAndResetChannel_none hchannel
  unfold stopInLoop
  rw [exec_bind_ok (exec_get _)]
  simp only [hstate, if_true]
  rw [exec_bind_ok (exec_modify _ _)]
  exact exec_bind_error hremove _

/-- `handleWrite` outside `kConnecting`. -/
theorem exec_handleWrite_other (hstate : s.state ≠ .kConnecting) :
    exec (handleWrite a) s = (.ok ⟨⟩, s) := by
  unfold handleWrite
  rw [exec_bind_ok (exec_get _)]
  simp only [hstate, if_false]
  rfl

/-- `handleError` outside `kConnecting`. -/
theorem exec_handleError_other (hstate : s.state ≠ .kConnecting) :
    exec (handleError a) s = (.ok ⟨⟩, s) := by
  unfold handleError
  rw [exec_bind_ok (exec_get _)]
  simp only [hstate, if_false]
  rfl

/-- `handleWrite` on an attempt that succeeded and is still wanted. -/
theorem exec_handleWrite_success (hstate : s.state = .kConnecting) (hchannel : s.channel = some c)
    (hindex : c.index = .kAdded) (herror : a.soError = 0) (hself : a.selfConnect = false)
    (hconnect : s.connect_ = true) :
    exec (handleWrite a) s = (.ok ⟨⟩,
      { s.detached c [.del] with
        state := .kConnected
        log := .handOver c.fd :: (s.detached c [.del]).log }) := by
  unfold handleWrite
  rw [exec_bind_ok (exec_get _)]
  simp only [hstate, if_true]
  rw [exec_bind_ok (exec_removeAndResetChannel_added hchannel hindex)]
  simp only [herror, hself, hconnect, ne_eq, not_true_eq_false, Bool.false_eq_true, or_self, if_false,
    if_true]
  rfl

/-- `handleError` on an attempt. The descriptor is registered and taken out once more before it is
closed. -/
theorem exec_handleError_added (hstate : s.state = .kConnecting) (hchannel : s.channel = some c)
    (hindex : c.index = .kAdded) (hheld : c.fd ∈ held s.log) :
    exec (handleError a) s = (.ok ⟨⟩,
      ((s.detached c [.del]).detached { c with events := kNoneEvent, index := .kNew }
        [.del, .add]).scheduled c.fd c.fd) := by
  unfold handleError
  rw [exec_bind_ok (exec_get _)]
  simp only [hstate, if_true]
  rw [exec_bind_ok (exec_removeAndResetChannel_added hchannel hindex)]
  have hset : (s.detached c [.del]).poller.interest c.fd = none := Function.update_self _ _ _
  exact exec_retry (exec_removeAndResetChannel_new
    (c := { c with events := kNoneEvent, index := .kNew }) rfl rfl hset (.inl hheld))

/-- The state behind closing a socket. -/
def closed (s : ConnectorLoop) (fd : ℕ) : ConnectorLoop := { s with log := .close fd :: s.log }

/-- `stopInLoop` in `kConnecting` with a channel closes the socket and goes on to `retry`. -/
theorem after_stopInLoop {s₁ : ConnectorLoop} {fd : ℕ} (hstate : s.state = .kConnecting)
    (hremove : exec (removeAndResetChannel a) { s with state := .kDisconnected } = (.ok fd, s₁)) :
    s.after (stopInLoop a) = (s₁.closed fd).after (retry a s.retryDelayMs) := by
  unfold after stopInLoop
  rw [exec_bind_ok (exec_get _)]
  simp only [hstate, if_true]
  rw [exec_bind_ok (exec_modify _ _), exec_bind_ok hremove, close, record,
    exec_bind_ok (exec_modify _ _)]
  rfl

/-- `stopInLoop` in `kConnecting` when the number of the channel is closed. -/
theorem after_stopInLoop_error {s₁ : ConnectorLoop} {fault : ConnectorFault}
    (hstate : s.state = .kConnecting)
    (hremove : exec (removeAndResetChannel a) { s with state := .kDisconnected } = (.error fault, s₁)) :
    s.after (stopInLoop a) = { s₁ with fault := some fault } := by
  unfold after stopInLoop
  rw [exec_bind_ok (exec_get _)]
  simp only [hstate, if_true]
  rw [exec_bind_ok (exec_modify _ _), exec_bind_error hremove]

/-- `stopInLoop` during an attempt closes the socket and goes on to `retry`. -/
theorem after_stopInLoop_added (hstate : s.state = .kConnecting) (hchannel : s.channel = some c)
    (hindex : c.index = .kAdded) :
    s.after (stopInLoop a) =
      ((({ s with state := .kDisconnected } : ConnectorLoop).detached c [.del]).closed c.fd).after
        (retry a s.retryDelayMs) :=
  after_stopInLoop hstate (exec_removeAndResetChannel_added hchannel hindex)

/-- `handleWrite` on a failed attempt closes the socket and goes on to `retry`. -/
theorem after_handleWrite_failed (hstate : s.state = .kConnecting) (hchannel : s.channel = some c)
    (hindex : c.index = .kAdded) (hfailed : a.soError ≠ 0 ∨ a.selfConnect = true) :
    s.after (handleWrite a) =
      ((s.detached c [.del]).closed c.fd).after (retry a s.retryDelayMs) := by
  unfold after handleWrite
  rw [exec_bind_ok (exec_get _)]
  simp only [hstate, if_true]
  rw [exec_bind_ok (exec_removeAndResetChannel_added hchannel hindex)]
  simp only [hfailed, if_true]
  rw [close, record, exec_bind_ok (exec_modify _ _)]
  rfl

/-- `handleWrite` on an attempt that succeeded and is not wanted any more closes the socket and goes on
to `retry`. -/
theorem after_handleWrite_unwanted (hstate : s.state = .kConnecting) (hchannel : s.channel = some c)
    (hindex : c.index = .kAdded) (hsuccess : ¬ (a.soError ≠ 0 ∨ a.selfConnect = true))
    (hconnect : s.connect_ = false) :
    s.after (handleWrite a) =
      (({ s.detached c [.del] with state := .kConnected } : ConnectorLoop).closed c.fd).after
        (retry a s.retryDelayMs) := by
  unfold after handleWrite
  rw [exec_bind_ok (exec_get _)]
  simp only [hstate, if_true]
  rw [exec_bind_ok (exec_removeAndResetChannel_added hchannel hindex)]
  simp only [hsuccess, if_false]
  rw [exec_bind_ok (exec_modify _ _)]
  simp only [hconnect, Bool.false_eq_true, if_false]
  rw [close, record, exec_bind_ok (exec_modify _ _)]
  rfl

/-- `retry` with a channel that was taken out registers the number once more, or ends the process when it
is closed. -/
theorem after_retry_new (delayMs : ℕ) (hchannel : s.channel = some c) (hindex : c.index = .kNew)
    (hset : s.poller.interest c.fd = none) :
    s.after (retry a delayMs) = (s.detached c [.del, .add]).scheduled c.fd delayMs ∨
      s.after (retry a delayMs) =
        { s with log := .epollCtl .add c.fd :: s.log, fault := some .fatal } := by
  by_cases hopen : s.open_ a c.fd
  · exact .inl (after_of_ok (exec_retry (exec_removeAndResetChannel_new hchannel hindex hset hopen)))
  · exact .inr (after_of_error (exec_retry_error
      (exec_removeAndResetChannel_closed hchannel hindex hopen)))

/-- The state that `restart` calls `startInLoop` in. -/
def restarting (s : ConnectorLoop) : ConnectorLoop :=
  { s with
    state := .kDisconnected
    retryDelayMs := kInitRetryDelayMs
    connect_ := true
    starts := s.starts + 1 }

/-- `restart` is `startInLoop` with everything as at first. -/
theorem after_restart (s : ConnectorLoop) (a : SystemAnswers) :
    s.after (restart a) = s.restarting.after (startInLoop a) := by
  unfold after restart
  rw [exec_bind_ok (exec_modify _ _)]
  rfl

/-- `startInLoop` in `kDisconnected` when a connection is wanted. -/
theorem after_startInLoop (hstate : s.state = .kDisconnected) (hconnect : s.connect_ = true) :
    s.after (startInLoop a) = s.after (connect a) := by
  unfold after
  rw [exec_startInLoop hstate, if_pos hconnect]

/-- Does the event reach the write callback? -/
def writes (revents : Mask) : Bool :=
  !hasAny revents EPOLLERR && !hasAny revents (EPOLLHUP ||| EPOLLRDHUP) &&
    !hasAny revents (EPOLLIN ||| EPOLLPRI) && hasAny revents EPOLLOUT

/-- What the event of the channel calls. -/
theorem after_handleEventWithGuard_cases (s : ConnectorLoop) (a : SystemAnswers) (revents : Mask) :
    (hasAny revents EPOLLERR = true ∧
        s.after (handleEventWithGuard a revents) = s.after (handleError a)) ∨
      (hasAny revents EPOLLERR = false ∧ writes revents = true ∧
        s.after (handleEventWithGuard a revents) = s.after (handleWrite a)) ∨
      (hasAny revents EPOLLERR = false ∧ writes revents = false ∧
        (s.after (handleEventWithGuard a revents) = s ∨
          s.after (handleEventWithGuard a revents) = { s with fault := some .fatal })) := by
  unfold handleEventWithGuard
  by_cases herr : hasAny revents EPOLLERR = true
  · rw [if_pos herr]
    exact .inl ⟨herr, rfl⟩
  rw [if_neg herr]
  rw [Bool.not_eq_true] at herr
  by_cases hhup : hasAny revents (EPOLLHUP ||| EPOLLRDHUP) = true
  · rw [if_pos hhup, after_of_ok (exec_pure _ _)]
    exact .inr (.inr ⟨herr, by simp [writes, hhup], .inl rfl⟩)
  rw [if_neg hhup]
  by_cases hin : hasAny revents (EPOLLIN ||| EPOLLPRI) = true
  · rw [if_pos hin, after_of_error (exec_bind_error (exec_throw _ _) _)]
    exact .inr (.inr ⟨herr, by simp [writes, hin], .inr rfl⟩)
  rw [if_neg hin]
  by_cases hout : hasAny revents EPOLLOUT = true
  · rw [if_pos hout]
    exact .inr (.inl ⟨herr, by simp [writes, herr, hhup, hin, hout], rfl⟩)
  · rw [if_neg hout, after_of_ok (exec_pure _ _)]
    exact .inr (.inr ⟨herr, by simp [writes, hout], .inl rfl⟩)

/-- The event of the channel calls one callback at most. -/
theorem after_handleEventWithGuard {P : ConnectorLoop → Prop} (revents : Mask) (hskip : P s)
    (hfatal : P { s with fault := some .fatal }) (herror : P (s.after (handleError a)))
    (hwrite : writes revents = true → P (s.after (handleWrite a))) :
    P (s.after (handleEventWithGuard a revents)) := by
  rcases after_handleEventWithGuard_cases s a revents with
    ⟨-, h⟩ | ⟨-, hwrites, h⟩ | ⟨-, -, h | h⟩ <;> rw [h]
  · exact herror
  · exact hwrite hwrites
  · exact hskip
  · exact hfatal

end ConnectorLoop

end CcMuduo
