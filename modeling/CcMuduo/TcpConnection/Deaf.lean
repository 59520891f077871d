import CcMuduo.TcpConnection.Delivery
import CcMuduo.TcpConnection.LinkSteps

/-!
# A connection that has gone deaf

The `handleWrite` that empties `outputBuffer` drops the read interest where it should drop the write
interest. Nothing in the connection turns the read interest on again, and with the write interest on
no later `send` writes at once and no later `shutdown` closes the write side. So from the first drain
on the connection hears nothing of its peer, neither bytes nor the end of the stream, unless it is reset:
`EPOLLERR` is reported without any interest, and is not among the events of a `Link`.
-/

namespace CcMuduo

open Foundation

/-- The readable bits of a mask that a poll reports. -/
theorem pollMask_readable (readable hangup writable : Bool) :
    hasAny (pollMask readable hangup writable) (EPOLLIN ||| EPOLLPRI) = readable := by
  revert readable hangup writable
  decide

/-- A channel without read interest is not interested in `EPOLLIN`. -/
theorem Channel.not_in_of_not_reading {c : Channel} (h : c.isReading = false) :
    hasAny c.events EPOLLIN = false := by
  have hbits : c.events &&& kReadEvent = 0#32 := by simpa [Channel.isReading, hasAny] using h
  have hand : c.events &&& EPOLLIN = (c.events &&& kReadEvent) &&& EPOLLIN := by
    rw [BitVec.and_assoc]
    exact congrArg (c.events &&& ·) (by decide)
  rw [hasAny, hand, hbits]
  decide

namespace Io

/-- The connection hears nothing more: the read interest is off, and until the connection is closed the
write interest is on. `heard` is what it has delivered, `half` says whether its write side is shut. -/
structure Deaf (heard : List UInt8) (half : Bool) (s : Io) : Prop where
  good : s.Good
  registered : s.Registered
  heard : delivered s.effects = heard
  half : shut s.effects = half
  reading : s.conn.channel.isReading = false
  writing : closed s.effects = false → s.conn.channel.isWriting = true

namespace Deaf

variable {heard : List UInt8} {half : Bool} {s s' : Io}

/-- A deaf connection that is not down never writes at once. -/
theorem not_direct (h : s.Deaf heard half) (hstate : s.conn.state ≠ .kDisconnected) :
    s.writesDirectly = false := by
  have hopen : closed s.effects = false := by
    rw [← Bool.not_eq_true, h.good.closed_iff]
    exact hstate
  simp [writesDirectly, h.writing hopen]

/-- A function that only sends, and leaves the interest bits as a deaf connection has them. -/
theorem of_sends (h : s.Deaf heard half) (hgood : s'.Good) (hregistered : s'.Registered)
    (hreading : s'.conn.channel.isReading = false) (hwriting : s'.conn.channel.isWriting = true)
    (hsends : ∃ new, s'.effects = s.effects ++ new ∧ ∀ e ∈ new, e.isSend = true) :
    s'.Deaf heard half := by
  obtain ⟨hdelivered, -⟩ := delivery_of_sends hsends
  obtain ⟨new, hnew, hsend⟩ := hsends
  refine ⟨hgood, hregistered, hdelivered.trans h.heard, ?_, hreading, fun _ => hwriting⟩
  rw [hnew, shut_append, shut_of_isSend hsend, Bool.or_false, h.half]

/-- A function that leaves channel, poller and effects alone. -/
theorem of_same (h : s.Deaf heard half) (hgood : s'.Good) (hpoller : s'.poller = s.poller)
    (hchannel : s'.conn.channel = s.conn.channel) (heffects : s'.effects = s.effects) :
    s'.Deaf heard half := by
  refine ⟨hgood, h.registered.of_same hpoller hchannel, ?_, ?_, ?_, ?_⟩
  · rw [heffects]
    exact h.heard
  · rw [heffects]
    exact h.half
  · rw [hchannel]
    exact h.reading
  · rw [heffects, hchannel]
    exact h.writing

/-- `sendInLoop` on a deaf connection only appends. -/
theorem of_sendInLoop (h : s.Deaf heard half) {msg : Message} {w : WriteResult} {log : ErrnoTrail}
    (hfits : w.fits msg.bytes.length = true) (hs : s.sendInLoop msg w log = .ok s') :
    s'.Deaf heard half := by
  rcases sendInLoop_cases h.good.output hfits hs with
    ⟨-, rfl⟩ | ⟨hstate, hdirect, -⟩ | ⟨hstate, hdirect, -⟩ | ⟨hstate, -, hsent⟩
  · exact h
  · rw [h.not_direct hstate] at hdirect
    contradiction
  · rw [h.not_direct hstate] at hdirect
    contradiction
  · have hopen : closed s.effects = false := by
      rw [← Bool.not_eq_true, h.good.closed_iff]
      exact hstate
    apply h.of_sends (h.good.of_sent hstate hsent) (h.registered.of_polled hsent.polled) _ _ hsent.sends
    · rw [hsent.reading, h.reading]
    · rw [hsent.writing, h.writing hopen, Bool.true_or]

/-- `shutdown` on a deaf connection is remembered and never carried out. -/
theorem of_shutdown (h : s.Deaf heard half) : s.shutdown.Deaf heard half := by
  by_cases hstate : s.conn.state = .kConnected
  · have hopen : closed s.effects = false := by
      rw [← Bool.not_eq_true, h.good.closed_iff, hstate]
      simp
    have heq : s.shutdown = s.setState .kDisconnecting := by
      rw [shutdown, if_pos hstate]
      simp [shutdownInLoop, setState, h.writing hopen]
    have hgood := h.good.of_shutdown
    rw [heq] at hgood ⊢
    exact h.of_same hgood rfl rfl rfl
  · have heq : s.shutdown = s := if_neg hstate
    rwa [heq]

/-- A call from outside the dispatch leaves a deaf connection deaf. -/
theorem of_call (h : s.Deaf heard half) {c : ConnCall} (huser : c.isUser = true)
    (hs : callStep s c = some s') : s'.Deaf heard half := by
  have hgood := h.good.step hs
  obtain ⟨hlegal, hexec⟩ := callStep_eq_some.mp hs
  cases c with
  | send msg w log =>
    simp only [ConnCall.exec, send] at hexec
    split at hexec
    · exact h.of_sendInLoop hlegal hexec
    · exact Except.ok.inj hexec ▸ h
  | sendInLoop msg w log => exact h.of_sendInLoop hlegal hexec
  | shutdown => exact Except.ok.inj hexec ▸ h.of_shutdown
  | handleRead r => contradiction
  | handleWrite w => contradiction
  | retrieve len =>
    obtain rfl := Except.ok.inj hexec
    exact h.of_same hgood rfl rfl rfl

/-- The write half of a dispatch leaves a deaf connection deaf. -/
theorem of_eventWrite (h : s.Deaf heard half) {revents : Mask} {w : WriteResult}
    (hfits : w.fits s.conn.outputBuffer.readableBytes = true)
    (hs : s.handleEventWrite revents w = .ok s') : s'.Deaf heard half := by
  obtain ⟨hgood, -⟩ := delivery_of_eventWrite h.good hfits hs
  unfold handleEventWrite at hs
  split at hs
  · exact Except.ok.inj hs ▸ h
  · split at hs
    · rcases handleWrite_cases h.good.output hfits hs with
        ⟨-, hdrain⟩ | ⟨-, out, -, -, -, new, hsend, -, rfl⟩
      · exact h.of_sends hgood (h.registered.of_polled hdrain.polled) hdrain.reading hdrain.writing
          hdrain.sends
      · have hdelivered : delivered (s.effects ++ new) = delivered s.effects := by
          rw [delivered_append, delivered_of_isSend hsend, List.append_nil]
        have hclosed : closed (s.effects ++ new) = closed s.effects := by
          rw [closed_append, closed_of_isSend hsend, Bool.or_false]
        refine ⟨hgood, h.registered.of_same rfl rfl, hdelivered.trans h.heard, ?_, h.reading, ?_⟩
        · rw [shut_append, shut_of_isSend hsend, Bool.or_false, h.half]
        · rw [hclosed]
          exact h.writing
    · exact Except.ok.inj hs ▸ h

/-- `handleClose` delivers nothing and leaves no interest. -/
theorem of_handleClose (h : s.Deaf heard half) (hs : s.handleClose = .ok s') :
    s'.Deaf heard half ∧ closed s'.effects = true := by
  have hclose := handleClose_closed hs
  have hclosed := hclose.closed
  have hgood := h.good.of_closedAfter hclose
  have hregistered := registered_of_closedAfter hclose
  have hdelivered := delivery_of_closedAfter hclose
  refine ⟨⟨hgood, hregistered, hdelivered.trans h.heard, ?_, ?_, by simp [hclosed]⟩, hclosed⟩
  · obtain ⟨p, index, -, rfl⟩ := hclose
    simpa [shut] using h.half
  · obtain ⟨p, index, -, rfl⟩ := hclose
    exact hasAny_zero _

end Deaf

/-- The only call that can empty `outputBuffer` is a `handleWrite` that drains it. -/
theorem drained_of_emptied {s s' : Io} {c : ConnCall} (hgood : s.Good)
    (hfull : s.conn.outputBuffer.content ≠ []) (hs : callStep s c = some s')
    (hempty : s'.conn.outputBuffer.content = []) :
    ∃ w, c = .handleWrite w ∧ s.drains w ∧ s.Drained s' := by
  obtain ⟨hlegal, hexec⟩ := callStep_eq_some.mp hs
  have of_sendInLoop {msg w log} (hfits : w.fits msg.bytes.length = true)
      (hs : s.sendInLoop msg w log = .ok s') : False := by
    rcases sendInLoop_cases hgood.output hfits hs with
      ⟨-, rfl⟩ | ⟨-, -, -, new, -, p, index, -, rfl⟩ | ⟨-, -, -, hsent⟩ | ⟨-, -, hsent⟩
    · exact hfull hempty
    · exact hfull hempty
    · exact hfull (List.append_eq_nil_iff.mp (hsent.content ▸ hempty)).1
    · exact hfull (List.append_eq_nil_iff.mp (hsent.content ▸ hempty)).1
  cases c with
  | send msg w log =>
    simp only [ConnCall.exec, send] at hexec
    split at hexec
    · exact (of_sendInLoop hlegal hexec).elim
    · exact absurd (Except.ok.inj hexec ▸ hempty) hfull
  | sendInLoop msg w log => exact (of_sendInLoop hlegal hexec).elim
  | shutdown =>
    obtain rfl := Except.ok.inj hexec
    have hsame : s.shutdown.conn.outputBuffer = s.conn.outputBuffer := by
      unfold shutdown shutdownInLoop
      split
      · split <;> rfl
      · rfl
    exact absurd (hsame ▸ hempty) hfull
  | handleRead r =>
    exfalso
    rcases handleRead_cases hgood.input hexec with
      ⟨-, -, rfl⟩ | ⟨-, input, -, p, index, -, rfl⟩ | ⟨bytes, rfl, -, hread⟩
    · exact hfull hempty
    · exact hfull hempty
    · obtain ⟨input, -, -, rfl⟩ := hread (by simpa [ConnCall.legal] using hlegal)
      exact hfull hempty
  | handleWrite w =>
    rcases handleWrite_cases hgood.output hlegal hexec with
      ⟨hdrains, hdrain⟩ | ⟨-, out, -, -, hkept, new, -, -, rfl⟩
    · exact ⟨w, rfl, hdrains, hdrain⟩
    · exact absurd (hkept.mp hempty) hfull
  | retrieve len =>
    obtain rfl := Except.ok.inj hexec
    exact absurd hempty hfull

end Io

/-- A deaf link: its connection is deaf and can be closed by a hang-up only, which needs the own write
side shut; no event in progress is readable. -/
structure Link.Deaf (heard : List UInt8) (half : Bool) (s : Link) : Prop where
  io : s.io.Deaf heard half
  ended : closed s.io.effects = true → half = true ∧ s.fin = true
  dark : ∀ revents, s.phase = .reported revents ∨ s.phase = .reading revents →
    hasAny revents (EPOLLIN ||| EPOLLPRI) = false ∧
      (hasAny revents (EPOLLHUP ||| EPOLLRDHUP) = true → half = true ∧ s.fin = true)

namespace Link

variable {heard : List UInt8} {half : Bool} {s s' : Link}

/-- What a poll reports of a deaf link is not readable. -/
theorem Deaf.of_report (h : s.Deaf heard half) {writable : Bool} {revents : Mask}
    (hreport : s.report writable = some revents) :
    hasAny revents (EPOLLIN ||| EPOLLPRI) = false ∧
      (hasAny revents (EPOLLHUP ||| EPOLLRDHUP) = true → half = true ∧ s.fin = true) := by
  obtain ⟨⟨events, address⟩, hset, hmask⟩ := Option.bind_eq_some_iff.mp hreport
  have hevents := h.io.registered events address hset
  have hin : hasAny events EPOLLIN = false := by
    rw [hevents]
    exact Channel.not_in_of_not_reading h.io.reading
  dsimp only at hmask
  split at hmask
  · contradiction
  · rw [← Option.some.inj hmask, pollMask_readable, (pollMask_bits _ _ _).2.1, hin, Bool.false_and,
      h.io.half, Bool.and_eq_true]
    exact ⟨rfl, And.symm⟩

/-- The read half of a dispatch on a deaf link does nothing or hangs up. -/
theorem Deaf.of_eventRead (h : s.Deaf heard half) {r : ReadResult}
    (hstep : s.step (.eventRead r) = some s') : s'.Deaf heard half := by
  obtain ⟨revents, io, hphase, -, hio, rfl⟩ := step_eventRead hstep
  obtain ⟨hdark, hhang⟩ := h.dark revents (.inl hphase)
  have hsame : ∀ m, EventPhase.reading revents = .reported m ∨ EventPhase.reading revents = .reading m →
      hasAny m (EPOLLIN ||| EPOLLPRI) = false ∧
        (hasAny m (EPOLLHUP ||| EPOLLRDHUP) = true → half = true ∧ s.fin = true) := by
    rintro m (hm | hm)
    · contradiction
    · rw [← EventPhase.reading.inj hm]
      exact ⟨hdark, hhang⟩
  unfold Io.handleEventRead at hio
  split at hio
  · obtain rfl := Except.ok.inj hio
    exact ⟨h.io, h.ended, hsame⟩
  · split at hio
    · rename_i hup
      obtain ⟨hdeaf, -⟩ := h.io.of_handleClose hio
      exact ⟨hdeaf, fun _ => hhang hup, hsame⟩
    · rw [hdark] at hio
      obtain rfl := Except.ok.inj hio
      exact ⟨h.io, h.ended, hsame⟩

/-- A deaf link stays deaf. -/
theorem Deaf.step (h : s.Deaf heard half) {label : LinkLabel} (hstep : s.step label = some s') :
    s'.Deaf heard half := by
  cases label with
  | peerSend bytes =>
    obtain ⟨-, rfl⟩ := step_peerSend hstep
    exact ⟨h.io, h.ended, h.dark⟩
  | peerFin =>
    obtain ⟨hfin, rfl⟩ := step_peerFin hstep
    refine ⟨h.io, fun hclosed => ⟨(h.ended hclosed).1, rfl⟩, fun revents hphase => ?_⟩
    obtain ⟨hdark, hhang⟩ := h.dark revents hphase
    exact ⟨hdark, fun hup => ⟨(hhang hup).1, rfl⟩⟩
  | poll writable =>
    obtain ⟨-, revents, hreport, rfl⟩ := step_poll hstep
    refine ⟨h.io, h.ended, ?_⟩
    rintro m (hm | hm)
    · rw [← EventPhase.reported.inj hm]
      exact h.of_report hreport
    · contradiction
  | eventRead r => exact h.of_eventRead hstep
  | eventWrite w =>
    obtain ⟨revents, io, -, hfits, hio, rfl⟩ := step_eventWrite hstep
    obtain ⟨-, -, hclosed⟩ := delivery_of_eventWrite h.io.good hfits hio
    refine ⟨h.io.of_eventWrite hfits hio, ?_, ?_⟩
    · rw [hclosed]
      exact h.ended
    · rintro m (hm | hm) <;> contradiction
  | call c =>
    obtain ⟨huser, io, hio, rfl⟩ := step_call hstep
    obtain ⟨-, hclosed⟩ := delivery_of_call h.io.good huser hio
    refine ⟨h.io.of_call huser hio, ?_, h.dark⟩
    rw [hclosed]
    exact h.ended

/-- The step that empties `outputBuffer` makes the link deaf. -/
theorem deaf_of_emptied {label : LinkLabel} (hgood : s.io.Good) (hregistered : s.io.Registered)
    (hfull : s.io.conn.outputBuffer.content ≠ []) (hstep : s.step label = some s')
    (hempty : s'.io.conn.outputBuffer.content = []) :
    s'.Deaf (delivered s'.io.effects) (shut s'.io.effects) := by
  have hgood' := (step_good hgood hstep).1
  have hregistered' := step_registered hgood hregistered hstep
  have hmoved : s'.io ≠ s.io := fun heq => hfull (heq ▸ hempty)
  have hcall {c : ConnCall} (hc : callStep s.io c = some s'.io) :
      ∃ w, c = .handleWrite w ∧ s.io.drains w ∧ s.io.Drained s'.io :=
    Io.drained_of_emptied hgood hfull hc hempty
  cases label with
  | peerSend bytes => exact absurd (congrArg Link.io (step_peerSend hstep).2) hmoved
  | peerFin => exact absurd (congrArg Link.io (step_peerFin hstep).2) hmoved
  | poll writable =>
    obtain ⟨-, revents, -, rfl⟩ := step_poll hstep
    exact absurd rfl hmoved
  | eventRead r =>
    obtain ⟨revents, io, -, hanswer, hio, rfl⟩ := step_eventRead hstep
    unfold Io.handleEventRead at hio
    split at hio
    · exact absurd (Except.ok.inj hio).symm hmoved
    · split at hio
      · obtain ⟨p, index, -, rfl⟩ := Io.handleClose_closed hio
        exact absurd hempty hfull
      · split at hio
        · obtain ⟨w, hread, -⟩ := hcall (callStep_eq_some.mpr ⟨legal_of_answers hanswer, hio⟩)
          contradiction
        · exact absurd (Except.ok.inj hio).symm hmoved
  | eventWrite w =>
    obtain ⟨revents, io, -, hfits, hio, rfl⟩ := step_eventWrite hstep
    have hclosed := (delivery_of_eventWrite hgood hfits hio).2.2
    unfold Io.handleEventWrite at hio
    split at hio
    · exact absurd (Except.ok.inj hio).symm hmoved
    · split at hio
      · have hc : callStep s.io (.handleWrite w) = some io := callStep_eq_some.mpr ⟨hfits, hio⟩
        obtain ⟨v, -, hdrains, hdrain⟩ := hcall hc
        have hopen := (hgood.open_of_drained hdrains hdrain).2
        refine ⟨⟨hgood', hregistered', rfl, rfl, hdrain.reading, fun _ => hdrain.writing⟩, ?_, ?_⟩
        · simp [hopen]
        · rintro m (hm | hm) <;> contradiction
      · exact absurd (Except.ok.inj hio).symm hmoved
  | call c =>
    obtain ⟨huser, io, hio, rfl⟩ := step_call hstep
    obtain ⟨w, rfl, -⟩ := hcall hio
    contradiction

end Link

/-- Once `outputBuffer` has gone from holding bytes to holding none, the message callback is given
nothing more, the write side stays as it is, and the connection is closed only by a hang-up behind a
write side that was shut before: whatever the peer sends short of a reset, and whatever is sent to it. -/
theorem deaf_after_drain (o : Opening) (before after : List LinkLabel) (label : LinkLabel)
    (s t : Link) (hrun : run Link.step (Link.opened o) before = some s)
    (hfull : s.io.conn.outputBuffer.content ≠ []) (hstep : s.step label = some t)
    (hempty : t.io.conn.outputBuffer.content = []) :
    Everywhere Link.step (fun u => delivered u.io.effects = delivered t.io.effects ∧
      shut u.io.effects = shut t.io.effects ∧
      (closed u.io.effects = true → shut t.io.effects = true ∧ u.fin = true)) t after := by
  have hkept : s.io.Good ∧ s.io.Registered :=
    invariant_of_steps (I := fun u => u.io.Good ∧ u.io.Registered)
      (fun u a u' h hu => ⟨(Link.step_good h.1 hu).1, Link.step_registered h.1 h.2 hu⟩)
      ⟨o.established_good, o.established_registered⟩ hrun
  have hdeaf := Link.deaf_of_emptied hkept.1 hkept.2 hfull hstep hempty
  exact everywhere_of_invariant (I := Link.Deaf (delivered t.io.effects) (shut t.io.effects))
    (fun u h => ⟨h.io.heard, h.io.half, h.ended⟩) (fun u a u' h hu => h.step hu) hdeaf after

/-- A short write and the event that sends the rest: the byte and the end of the stream that follow go
unnoticed. -/
theorem deaf_after_short_write : ∃ s t : Link,
    run Link.step (Link.opened Opening.fresh)
      [.call (.send ⟨0, [97, 98, 99], by decide⟩ (.accepted 1) ⟨id, id⟩), .poll true,
        .eventRead (.failed EWOULDBLOCK)] = some s ∧
    s.step (.eventWrite (.accepted 2)) = some t ∧
    Everywhere Link.step (fun u => delivered u.io.effects = delivered t.io.effects ∧
      shut u.io.effects = shut t.io.effects ∧
      (closed u.io.effects = true → shut t.io.effects = true ∧ u.fin = true)) t
      [.peerSend [97], .peerFin, .poll true, .eventRead (.received [97]), .eventWrite (.accepted 0)] := by
  have hrun : (run Link.step (Link.opened Opening.fresh)
      [.call (.send ⟨0, [97, 98, 99], by decide⟩ (.accepted 1) ⟨id, id⟩), .poll true,
        .eventRead (.failed EWOULDBLOCK)]).isSome = true := by decide +kernel
  have hstep : (((run Link.step (Link.opened Opening.fresh)
      [.call (.send ⟨0, [97, 98, 99], by decide⟩ (.accepted 1) ⟨id, id⟩), .poll true,
        .eventRead (.failed EWOULDBLOCK)]).get hrun).step (.eventWrite (.accepted 2))).isSome =
      true := by decide +kernel +revert
  exact ⟨_, _, (Option.some_get hrun).symm, (Option.some_get hstep).symm,
    deaf_after_drain Opening.fresh _ _ _ _ _ (Option.some_get hrun).symm
      (by decide +kernel +revert) (Option.some_get hstep).symm (by decide +kernel +revert)⟩

end CcMuduo
