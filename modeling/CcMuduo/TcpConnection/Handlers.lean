import CcMuduo.TcpConnection.Calls
import CcMuduo.TcpConnection.Lifetime

/-!
# What each function does to the life of a connection

One lemma for each function of the connection. Under the invariants of the buffers every completed call
`Keeps` the connection settled; `handleRead` and `handleClose` do so on an open connection only. A
function that cannot close the connection leaves an open connection open (`KeepsOpen`).
-/

namespace CcMuduo

open Foundation

/-- The event gets as far as `handleRead` or `handleClose`. -/
def reachesHandler (revents : Mask) : Bool :=
  !hasAny revents EPOLLERR &&
    (hasAny revents (EPOLLHUP ||| EPOLLRDHUP) || hasAny revents (EPOLLIN ||| EPOLLPRI))

namespace Io

/-- What every function keeps. -/
structure Keeps (s s' : Io) : Prop where
  moves : Moves s s'
  settled : s.Settled → s'.Settled

/-- What a function keeps that cannot close the connection. -/
structure KeepsOpen (s s' : Io) : Prop extends Keeps s s' where
  stays : s.conn.isOpen → s'.conn.isOpen

variable {s s' : Io}

/-- A connection that is down is not open. -/
theorem not_isOpen_of_down (h : s.conn.state = .kDisconnected) : ¬ s.conn.isOpen := by
  simp [TcpConnection.isOpen, h]

/-- A begun connection is open or down. -/
theorem isOpen_of_ne (hbegun : s.conn.state ≠ .kConnecting) (hdown : s.conn.state ≠ .kDisconnected) :
    s.conn.isOpen := by
  unfold TcpConnection.isOpen
  cases hstate : s.conn.state <;> simp_all

/-- An open connection is neither new nor down. -/
theorem ne_of_isOpen (h : s.conn.isOpen) :
    s.conn.state ≠ .kConnecting ∧ s.conn.state ≠ .kDisconnected := by
  rcases h with h | h <;> simp [h]

/-- A function that does nothing. -/
theorem KeepsOpen.refl (h : s.Sound) : KeepsOpen s s :=
  ⟨⟨moves_of_same h rfl rfl id id, id⟩, id⟩

/-- A handler that leaves state, channel and poller alone and adds no notification. -/
theorem KeepsOpen.of_same (hsound : s'.Sound) (hstate : s'.conn.state = s.conn.state)
    (hchannel : s'.conn.channel = s.conn.channel) (hpoller : s'.poller = s.poller)
    {new : List Effect} (heffects : s'.effects = s.effects ++ new) (hnew : Unnoticed new)
    (hmessage : ∀ e ∈ new, e.isMessage = false) : KeepsOpen s s' := by
  refine ⟨⟨moves_of_same hsound hchannel hpoller ?_ ?_, fun h => ?_⟩, ?_⟩
  · rw [hstate]
    exact id
  · rw [hstate]
    exact id
  · exact h.of_same hsound hstate hchannel hpoller heffects hnew (.inr hmessage)
  · exact (TcpConnection.isOpen_congr hstate).mpr

/-- `connectEstablished` opens a new connection. -/
theorem connectEstablished_keeps (hsound : s.Sound) (hnew : s.conn.state = .kConnecting)
    (h : s.connectEstablished = .ok s') : Keeps s s' ∧ s'.conn.isOpen := by
  obtain ⟨s₁, h₁, heq⟩ := bind_eq_ok.mp h
  obtain ⟨p, index, hupdate, rfl⟩ := onChannel_update (m := fun e => e ||| kReadEvent) h₁
  simp only [pure_eq_ok, Except.ok.injEq] at heq
  subst heq
  have hframe := EpollPoller.updateChannel_sameExcept hupdate
  refine ⟨⟨⟨⟨hsound.output, hsound.input⟩, rfl, rfl, hframe, fun hne => absurd hnew hne, ?_⟩, ?_⟩,
    .inl rfl⟩
  · simp [hnew]
  · intro hs
    have hclosed : ¬ s.conn.isOpen := by simp [TcpConnection.isOpen, hnew]
    have hindex : s.conn.channel.index ≠ .kAdded := mt hs.added_iff.mp hclosed
    have htracks : s.poller.Tracks
        { s.conn.channel with events := s.conn.channel.events ||| kReadEvent } := hs.tracks
    obtain ⟨q, hq, hmap, hset, -⟩ := htracks.updateChannel
    have hadd : ¬ (s.conn.channel.index = .kAdded ∧ Channel.isNoneEvent
        { s.conn.channel with events := s.conn.channel.events ||| kReadEvent } = true) :=
      fun hadded => hindex hadded.1
    rw [if_neg hadd] at hset
    rw [if_neg hadd] at hq
    have heq := hupdate.symm.trans hq
    simp only [setState, Except.ok.injEq, Prod.mk.injEq, Channel.mk.injEq, true_and] at heq
    obtain ⟨rfl, rfl⟩ := heq
    have hhistory : ups s.effects = 0 ∧ downs s.effects = 0 ∧ closes s.effects = 0 := by
      have := hs.history
      rwa [hnew] at this
    obtain ⟨hups, hdowns, hcloses⟩ := hhistory
    refine ⟨⟨hsound.output, hsound.input⟩, ⟨hmap, _, hset⟩, iff_of_true rfl (.inl rfl),
      fun _ => .inl (hasAny_or_self _ (by decide)), fun hdown => absurd (.inl rfl) hdown, ?_, ?_⟩
    · refine ⟨?_, ?_, ?_⟩
      · change ups (s.effects ++ [.connectionCallback true]) = 1
        rw [ups_append, hups]
        rfl
      · change downs (s.effects ++ [.connectionCallback true]) = 0
        rw [downs_append, hdowns]
        rfl
      · change closes (s.effects ++ [.connectionCallback true]) = 0
        rw [closes_append, hcloses]
        rfl
    · exact hs.quiet.append (List.pairwise_singleton _ _) (.inl hdowns)

/-- `shutdownInLoop` closes the write side at most. -/
theorem shutdownInLoop_keeps (hsound : s.Sound) : KeepsOpen s s.shutdownInLoop := by
  unfold shutdownInLoop
  split
  · exact .of_same ⟨hsound.output, hsound.input⟩ rfl rfl rfl rfl ⟨rfl, rfl, rfl⟩
      (by simp [Effect.isMessage])
  · exact .refl hsound

/-- Storing `kDisconnecting` on an open connection. -/
theorem setState_keeps (hsound : s.Sound) (hopen : s.conn.isOpen) :
    KeepsOpen s (s.setState .kDisconnecting) := by
  have hne := ne_of_isOpen hopen
  refine ⟨⟨moves_of_same ⟨hsound.output, hsound.input⟩ rfl rfl (by simp [setState]) ?_, fun h => ?_⟩,
    fun _ => .inr rfl⟩
  · exact fun hdown => absurd hdown hne.2
  · exact h.of_polled hopen ⟨hsound.output, hsound.input⟩ (.inr rfl) (.inl ⟨rfl, rfl⟩)
      (h.interested hopen) (List.append_nil _).symm .nil

/-- One function after another. -/
theorem KeepsOpen.trans {s'' : Io} (h : KeepsOpen s s') (h' : KeepsOpen s' s'') :
    KeepsOpen s s'' := by
  refine ⟨⟨⟨h'.moves.sound, h'.moves.fd.trans h.moves.fd, h'.moves.address.trans h.moves.address, ?_,
    h'.moves.begun ∘ h.moves.begun, h'.moves.down ∘ h.moves.down⟩, h'.settled ∘ h.settled⟩,
    h'.stays ∘ h.stays⟩
  intro other hne
  obtain ⟨hmap, hset⟩ := h.moves.frame other hne
  obtain ⟨hmap', hset'⟩ := h'.moves.frame other (h.moves.fd.symm ▸ hne)
  exact ⟨hmap'.trans hmap, hset'.trans hset⟩

/-- `shutdown` leaves the connection open until it is closed. -/
theorem shutdown_keeps (hsound : s.Sound) : KeepsOpen s s.shutdown := by
  unfold shutdown
  split
  · rename_i hstate
    have hstore := setState_keeps hsound (.inl hstate)
    exact hstore.trans (shutdownInLoop_keeps hstore.moves.sound)
  · exact .refl hsound

/-- The message callback taking bytes out of `inputBuffer`. -/
theorem retrieve_keeps (hsound : s.Sound) (len : ℕ) : KeepsOpen s
    { s with conn := { s.conn with inputBuffer := s.conn.inputBuffer.retrieve len } } :=
  .of_same ⟨hsound.output, hsound.input.retrieve len⟩ rfl rfl rfl (List.append_nil _).symm .nil
    (by simp)

/-- Sending keeps an open connection open. -/
theorem keepsOpen_of_sent (hsound : s.Sound) (hopen : s.conn.isOpen) {taken rest : List UInt8}
    (hsent : Sent s s' taken rest) : KeepsOpen s s' := by
  refine ⟨⟨moves_of_polled hsent.polled ⟨hsent.inv, hsent.input ▸ hsound.input⟩ ?_ ?_,
    fun h => h.of_sent hopen hsent⟩, ?_⟩
  · rw [hsent.state]
    exact id
  · rw [hsent.state]
    exact id
  · exact (TcpConnection.isOpen_congr hsent.state).mpr

/-- `sendInLoop` does nothing to a connection that is down. -/
theorem sendInLoop_down {msg : Message} {w : WriteResult} {log : ErrnoTrail}
    (hdown : s.conn.state = .kDisconnected) (h : s.sendInLoop msg w log = .ok s') : s' = s := by
  rw [sendInLoop, if_pos hdown] at h
  exact (Except.ok.inj h).symm

/-- The process does not survive a direct write that would close the connection: the store into the
literal comes before the tests of `errno`. -/
theorem sendInLoop_dies {msg : Message} {w : WriteResult} {log : ErrnoTrail}
    (hstate : s.conn.state ≠ .kDisconnected) (hdirect : s.writesDirectly = true)
    (hcloses : w.closes log = true) (h : s.sendInLoop msg w log = .ok s') : s'.survives = false := by
  cases w with
  | accepted n => contradiction
  | failed errno =>
    have hfatal : log.afterLog errno ≠ EWOULDBLOCK := fun heq => by
      simp [WriteResult.closes, heq] at hcloses
    have hfault : (log.afterFormat (log.afterLog errno) == EPIPE ||
        log.afterFormat (log.afterLog errno) == ECONNRESET) = true := by
      simpa [WriteResult.closes, hfatal] using hcloses
    simp only [sendInLoop, if_neg hstate, firstWrite, if_pos hdirect, directWrite, ne_eq, hfatal,
      not_false_eq_true, if_true, hfault] at h
    obtain ⟨p, index, -, rfl⟩ := handleClose_closed h
    simp [survives, emit]

/-- `sendInLoop` keeps the connection settled, and it does not close it in a process that lives on. -/
theorem sendInLoop_keeps {msg : Message} {w : WriteResult} {log : ErrnoTrail} (hsound : s.Sound)
    (hfits : w.fits msg.bytes.length = true) (hbegun : s.conn.state ≠ .kConnecting)
    (h : s.sendInLoop msg w log = .ok s') : Keeps s s' ∧ (s'.survives = true → KeepsOpen s s') := by
  rcases sendInLoop_cases hsound.output hfits h with
    ⟨-, rfl⟩ | ⟨hstate, hdirect, hcloses, new, hnew, hclose⟩ | ⟨hstate, -, -, hsent⟩ |
      ⟨hstate, -, hsent⟩
  · exact ⟨(KeepsOpen.refl hsound).toKeeps, fun _ => .refl hsound⟩
  · have hopen := isOpen_of_ne hbegun hstate
    have hdies := sendInLoop_dies hstate hdirect hcloses h
    refine ⟨⟨moves_of_closedAfter hsound hclose, fun hs => hs.of_closedAfter hopen hnew hclose⟩,
      fun hlives => ?_⟩
    have := hdies.symm.trans hlives
    contradiction
  · have hkeeps := keepsOpen_of_sent hsound (isOpen_of_ne hbegun hstate) hsent
    exact ⟨hkeeps.toKeeps, fun _ => hkeeps⟩
  · have hkeeps := keepsOpen_of_sent hsound (isOpen_of_ne hbegun hstate) hsent
    exact ⟨hkeeps.toKeeps, fun _ => hkeeps⟩

/-- `send` does not close the connection in a process that lives on. -/
theorem send_keeps {msg : Message} {w : WriteResult} {log : ErrnoTrail} (hsound : s.Sound)
    (hfits : w.fits msg.bytes.length = true) (h : s.send msg w log = .ok s') :
    Keeps s s' ∧ (s'.survives = true → KeepsOpen s s') := by
  unfold send at h
  split at h
  · rename_i hstate
    exact sendInLoop_keeps hsound hfits (by simp [hstate]) h
  · obtain rfl := Except.ok.inj h
    exact ⟨(KeepsOpen.refl hsound).toKeeps, fun _ => .refl hsound⟩

/-- What a call of user code does to the life of a connection. -/
theorem callStep_keeps {call : ConnCall} (hsound : s.Sound) (huser : call.byUser = true)
    (h : callStep s call = some s') : Keeps s s' := by
  obtain ⟨hlegal, hexec⟩ := callStep_eq_some.mp h
  cases call with
  | send msg w log => exact (send_keeps hsound hlegal hexec).1
  | shutdown => exact Except.ok.inj hexec ▸ (shutdown_keeps hsound).toKeeps
  | retrieve len => exact Except.ok.inj hexec ▸ (retrieve_keeps hsound len).toKeeps
  | sendInLoop | handleRead | handleWrite => contradiction

/-- On a connection that is not connected, calls of user code reach nothing but `inputBuffer`. -/
theorem callStep_idle {call : ConnCall} (huser : call.byUser = true)
    (hstate : s.conn.state ≠ .kConnected) (h : callStep s call = some s') :
    ∃ input, s' = { s with conn := { s.conn with inputBuffer := input } } := by
  obtain ⟨-, hexec⟩ := callStep_eq_some.mp h
  cases call with
  | send msg w log =>
    simp only [ConnCall.exec, send, if_neg hstate, Except.ok.injEq] at hexec
    exact ⟨s.conn.inputBuffer, hexec.symm⟩
  | shutdown =>
    simp only [ConnCall.exec, shutdown, if_neg hstate, Except.ok.injEq] at hexec
    exact ⟨s.conn.inputBuffer, hexec.symm⟩
  | retrieve len => exact ⟨_, (Except.ok.inj hexec).symm⟩
  | sendInLoop | handleRead | handleWrite => contradiction

/-- `handleRead` on an open connection. -/
theorem handleRead_keeps {r : ReadResult} (hsound : s.Sound)
    (hlegal : (ConnCall.handleRead r).legal s = true) (h : s.handleRead r = .ok s') :
    Moves s s' ∧ (s.conn.isOpen → s.Settled → s'.Settled) := by
  rcases handleRead_cases hsound.input h with
    ⟨-, -, rfl⟩ | ⟨-, input, hinv, hclose⟩ | ⟨bytes, rfl, -, hread⟩
  · exact ⟨(KeepsOpen.refl hsound).moves, fun _ => id⟩
  · have hread : KeepsOpen s { s with conn := { s.conn with inputBuffer := input } } :=
      .of_same ⟨hsound.output, hinv⟩ rfl rfl rfl (List.append_nil _).symm .nil (by simp)
    have hmoves := moves_of_closedAfter hread.moves.sound hclose
    refine ⟨⟨hmoves.sound, hmoves.fd, hmoves.address, hmoves.frame, hmoves.begun, hmoves.down⟩,
      fun hopen hs => ?_⟩
    exact (hread.settled hs).of_closedAfter hopen (by simp) hclose
  · obtain ⟨input, hinv, -, rfl⟩ := hread (by simpa [ConnCall.legal] using hlegal)
    refine ⟨moves_of_same ⟨hsound.output, hinv⟩ rfl rfl id id, fun hopen hs => ?_⟩
    exact hs.of_same ⟨hsound.output, hinv⟩ rfl rfl rfl rfl ⟨rfl, rfl, rfl⟩ (.inl hopen)

/-- The part of an event up to the read callback: it needs an open connection if it gets as far as a
handler, and does nothing otherwise. -/
theorem handleEventRead_keeps {revents : Mask} {r : ReadResult} (hsound : s.Sound)
    (hlegal : (ConnCall.handleRead r).legal s = true) (h : s.handleEventRead revents r = .ok s') :
    Moves s s' ∧ ((reachesHandler revents = true → s.conn.isOpen) → s.Settled → s'.Settled) := by
  unfold handleEventRead at h
  split at h
  · obtain rfl := Except.ok.inj h
    exact ⟨(KeepsOpen.refl hsound).moves, fun _ => id⟩
  · rename_i herror
    split at h
    · rename_i hhup
      have hclose := handleClose_closed h
      refine ⟨moves_of_closedAfter hsound hclose, fun hopen hs => ?_⟩
      exact hs.of_closedAfter (hopen (by simp [reachesHandler, herror, hhup])) (by simp) hclose
    · split at h
      · rename_i hin
        obtain ⟨hmoves, hsettled⟩ := handleRead_keeps hsound hlegal h
        exact ⟨hmoves, fun hopen => hsettled (hopen (by simp [reachesHandler, herror, hin]))⟩
      · obtain rfl := Except.ok.inj h
        exact ⟨(KeepsOpen.refl hsound).moves, fun _ => id⟩

/-- `handleWrite` keeps an open connection open, and a connection that is down has no write interest. -/
theorem handleWrite_keeps {w : WriteResult} (hsound : s.Sound)
    (hfits : w.fits s.conn.outputBuffer.readableBytes = true) (h : s.handleWrite w = .ok s') :
    KeepsOpen s s' := by
  rcases handleWrite_cases hsound.output hfits h with
    ⟨hdrains, hdrain⟩ | ⟨-, out, hinv, -, -, new, hsend, -, rfl⟩
  · obtain ⟨new, heffects, hnew⟩ := hdrain.sends
    have hinv : s'.Sound := ⟨hdrain.inv, hdrain.input ▸ hsound.input⟩
    have hsame := TcpConnection.isOpen_congr hdrain.state
    refine ⟨⟨moves_of_polled hdrain.polled hinv ?_ ?_, fun hs => ?_⟩, hsame.mpr⟩
    · rw [hdrain.state]
      exact id
    · rw [hdrain.state]
      exact id
    · have hopen : s.conn.isOpen := by
        by_contra hdown
        have hwriting := hdrains.1
        rw [Channel.isWriting, hs.uninterested hdown] at hwriting
        simp [kNoneEvent] at hwriting
      exact hs.of_polled hopen hinv (hsame.mpr hopen) hdrain.polled (.inr hdrain.writing) heffects
        (.of_isSend hnew)
  · exact .of_same ⟨hinv, hsound.input⟩ rfl rfl rfl rfl (.of_isSend hsend)
      fun e he => not_isMessage_of_isSend (hsend e he)

/-- The part of an event behind the read callback. -/
theorem handleEventWrite_keeps {revents : Mask} {w : WriteResult} (hsound : s.Sound)
    (hfits : w.fits s.conn.outputBuffer.readableBytes = true)
    (h : s.handleEventWrite revents w = .ok s') : KeepsOpen s s' := by
  unfold handleEventWrite at h
  split at h
  · exact Except.ok.inj h ▸ .refl hsound
  · split at h
    · exact handleWrite_keeps hsound hfits h
    · exact Except.ok.inj h ▸ .refl hsound

/-- `connectDestroyed` takes a connected connection down. -/
theorem notifyDestroyed_keeps (hsound : s.Sound) (hstate : s.conn.state = .kConnected)
    (h : s.notifyDestroyed = .ok s') : Keeps s s' ∧ s'.conn.state = .kDisconnected := by
  rw [notifyDestroyed, if_pos hstate] at h
  obtain ⟨s₁, h₁, heq⟩ := bind_eq_ok.mp h
  obtain ⟨p, index, hupdate, rfl⟩ := onChannel_update (m := fun _ => kNoneEvent) h₁
  simp only [pure_eq_ok, Except.ok.injEq] at heq
  subst heq
  have hframe := EpollPoller.updateChannel_sameExcept hupdate
  refine ⟨⟨⟨⟨hsound.output, hsound.input⟩, rfl, rfl, hframe, by simp [setState, emit],
    by simp [setState, emit]⟩, fun hs => ?_⟩, rfl⟩
  exact hs.of_down (.inl hstate) hupdate ⟨hsound.output, hsound.input⟩ rfl rfl rfl rfl rfl rfl
    (Nat.zero_le 1) (by simp [Effect.isMessage])

/-- The first half of `connectDestroyed` completes on a settled connection. -/
theorem Settled.notifyDestroyed (h : s.Settled) : ∃ x, s.notifyDestroyed = .ok x := by
  unfold Io.notifyDestroyed
  split
  · have htracks : s.poller.Tracks { s.conn.channel with events := kNoneEvent } := h.tracks
    obtain ⟨q, hq, -⟩ := htracks.updateChannel
    exact ⟨_, bind_eq_ok.mpr ⟨_, bind_eq_ok.mpr ⟨_, hq, rfl⟩, rfl⟩⟩
  · exact ⟨s, rfl⟩

/-- The second half of `connectDestroyed` completes on a settled connection. -/
theorem Settled.remove (h : s.Settled) : ∃ x, s.onChannel Channel.remove = .ok x := by
  obtain ⟨q, hq, -⟩ := h.tracks.removeChannel
  exact ⟨_, bind_eq_ok.mpr ⟨_, hq, rfl⟩⟩

/-- `remove` moves the records of the own descriptor. -/
theorem remove_moves (hsound : s.Sound) (h : s.onChannel Channel.remove = .ok s') :
    Moves s s' ∧ s'.conn.state = s.conn.state ∧ s'.effects = s.effects := by
  obtain ⟨⟨p, c⟩, hremove, heq⟩ := bind_eq_ok.mp h
  simp only [pure_eq_ok, Except.ok.injEq] at heq
  subst heq
  obtain ⟨hframe, rfl⟩ := EpollPoller.removeChannel_sameExcept hremove
  exact ⟨⟨⟨hsound.output, hsound.input⟩, rfl, rfl, hframe, id, id⟩, rfl, rfl⟩

/-- The channel leaves the poller. -/
theorem remove_keeps (hsound : s.Sound) (hdown : s.conn.state = .kDisconnected)
    (h : s.onChannel Channel.remove = .ok s') :
    Keeps s s' ∧ s'.conn.state = .kDisconnected ∧ (s.Settled →
      s'.poller.channels s'.conn.channel.fd = none ∧ s'.poller.interest s'.conn.channel.fd = none ∧
        s'.effects = s.effects) := by
  obtain ⟨hmoves, hstate, heffects⟩ := remove_moves hsound h
  obtain ⟨⟨p, c⟩, hremove, heq⟩ := bind_eq_ok.mp h
  simp only [pure_eq_ok, Except.ok.injEq] at heq
  subst heq
  have hremove' : s.poller.removeChannel s.conn.channel = .ok (p, c) := hremove
  obtain ⟨-, rfl⟩ := EpollPoller.removeChannel_sameExcept hremove'
  have hclosed := not_isOpen_of_down hdown
  have hgone (hs : s.Settled) : p.channels s.conn.channel.fd = none ∧
      p.interest s.conn.channel.fd = none := by
    obtain ⟨q, hq, hmap, hset, -⟩ := hs.tracks.removeChannel
    rw [hremove', Except.ok.injEq, Prod.mk.injEq] at hq
    obtain ⟨rfl, -⟩ := hq
    exact ⟨hmap, hset⟩
  refine ⟨⟨hmoves, fun hs => ?_⟩, hdown, fun hs => ⟨(hgone hs).1, (hgone hs).2, heffects⟩⟩
  exact ⟨⟨hsound.output, hsound.input⟩, hgone hs, iff_of_false (by simp) hclosed,
    fun hopen => absurd hopen hclosed, fun _ => hs.uninterested hclosed, hs.history, hs.quiet⟩

end Io

/-- A constructed connection is settled. -/
theorem Opening.constructed_settled (o : Opening) : o.constructed.Settled where
  toSound := ⟨Buffer.initial_inv, Buffer.initial_inv⟩
  tracks := o.unknown
  added_iff := iff_of_false (fun hindex => nomatch hindex) fun hopen => (Io.ne_of_isOpen hopen).1 rfl
  interested hopen := absurd rfl (Io.ne_of_isOpen hopen).1
  uninterested _ := rfl
  history := ⟨rfl, rfl, rfl⟩
  quiet := .nil

end CcMuduo
