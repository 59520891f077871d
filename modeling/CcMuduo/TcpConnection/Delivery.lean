import CcMuduo.Foundation.Run
import CcMuduo.TcpConnection.Link

/-!
# Delivery up to the close

The empty read closes a connection only behind the last byte. The hang-up does not wait for it: the
dispatch calls `handleClose` first and returns, and the bytes the kernel holds are lost.
-/

namespace CcMuduo

open Foundation

/-- When `handleClose` has run, every byte the peer sent was given to the message callback. -/
def Delivers (s : Link) : Prop := closed s.io.effects = true → delivered s.io.effects = s.sent

instance : DecidablePred Delivers := fun s =>
  inferInstanceAs (Decidable (closed s.io.effects = true → delivered s.io.effects = s.sent))

/-- An event with `EPOLLHUP` is dispatched only when nothing is unread. -/
def hangsUpDrained (s : Link) : LinkLabel → Prop
  | .eventRead _ =>
    ∀ revents, s.phase = .reported revents → hasAny revents EPOLLHUP = true → s.unread = []
  | _ => True

/-- What every step keeps. -/
structure Link.Inv (s : Link) : Prop where
  good : s.io.Good
  stream : s.sent = delivered s.io.effects ++ s.unread
  ended : closed s.io.effects = true → s.fin = true
  mask : ∀ revents, s.phase = .reported revents ∨ s.phase = .reading revents →
    hasAny revents EPOLLERR = false ∧
      hasAny revents (EPOLLHUP ||| EPOLLRDHUP) = hasAny revents EPOLLHUP ∧
      (hasAny revents EPOLLHUP = true → s.fin = true)

/-- A link delivers when it is open, or when nothing is unread. -/
theorem Link.Inv.delivers_iff {s : Link} (h : s.Inv) :
    Delivers s ↔ (closed s.io.effects = true → s.unread = []) := by
  unfold Delivers
  rw [h.stream]
  simp

/-- Sending neither delivers nor closes. -/
theorem delivery_of_sends {s s' : Io}
    (h : ∃ new, s'.effects = s.effects ++ new ∧ ∀ e ∈ new, e.isSend = true) :
    delivered s'.effects = delivered s.effects ∧ closed s'.effects = closed s.effects := by
  obtain ⟨new, hnew, hsend⟩ := h
  rw [hnew, delivered_append, closed_append, delivered_of_isSend hsend, closed_of_isSend hsend]
  simp

/-- The calls from outside the dispatch neither deliver nor close. -/
theorem delivery_of_call {s s' : Io} {c : ConnCall} (hgood : s.Good) (huser : c.isUser = true)
    (hstep : callStep s c = some s') :
    delivered s'.effects = delivered s.effects ∧ closed s'.effects = closed s.effects := by
  obtain ⟨hlegal, hexec⟩ := callStep_eq_some.mp hstep
  have of_sendInLoop {msg w log} (hfits : w.fits msg.bytes.length = true)
      (huser : (!w.closes log) = true) (hs : s.sendInLoop msg w log = .ok s') :
      delivered s'.effects = delivered s.effects ∧ closed s'.effects = closed s.effects := by
    rcases Io.sendInLoop_cases hgood.output hfits hs with
      ⟨-, rfl⟩ | ⟨-, -, hcloses, -⟩ | ⟨-, -, -, hsent⟩ | ⟨-, -, hsent⟩
    · exact ⟨rfl, rfl⟩
    · rw [hcloses] at huser
      contradiction
    · exact delivery_of_sends hsent.sends
    · exact delivery_of_sends hsent.sends
  cases c with
  | send msg w log =>
    simp only [ConnCall.exec, Io.send] at hexec
    split at hexec
    · exact of_sendInLoop hlegal huser hexec
    · exact Except.ok.inj hexec ▸ ⟨rfl, rfl⟩
  | sendInLoop msg w log => exact of_sendInLoop hlegal huser hexec
  | shutdown =>
    obtain rfl := Except.ok.inj hexec
    refine ⟨?_, Io.Good.closed_shutdown s⟩
    unfold Io.shutdown Io.shutdownInLoop
    split
    · split
      · simp [Io.emit, Io.setState, delivered]
      · rfl
    · rfl
  | handleRead r => contradiction
  | handleWrite w => contradiction
  | retrieve len => exact Except.ok.inj hexec ▸ ⟨rfl, rfl⟩

/-- The write half of the dispatch neither delivers nor closes. -/
theorem delivery_of_eventWrite {s s' : Io} {revents : Mask} {w : WriteResult} (hgood : s.Good)
    (hfits : w.fits s.conn.outputBuffer.readableBytes = true)
    (hs : s.handleEventWrite revents w = .ok s') :
    s'.Good ∧ delivered s'.effects = delivered s.effects ∧ closed s'.effects = closed s.effects := by
  unfold Io.handleEventWrite at hs
  split at hs
  · exact Except.ok.inj hs ▸ ⟨hgood, rfl, rfl⟩
  · split at hs
    · refine ⟨hgood.of_handleWrite hfits hs, ?_⟩
      rcases Io.handleWrite_cases hgood.output hfits hs with
        ⟨-, hdrain⟩ | ⟨-, out, -, -, -, new, hsend, -, rfl⟩
      · exact delivery_of_sends hdrain.sends
      · exact delivery_of_sends ⟨new, rfl, hsend⟩
    · exact Except.ok.inj hs ▸ ⟨hgood, rfl, rfl⟩

/-- `handleClose` closes and delivers nothing. -/
theorem delivery_of_closedAfter {s s' : Io} (h : Io.ClosedAfter s s' []) :
    delivered s'.effects = delivered s.effects := by
  obtain ⟨p, index, -, rfl⟩ := h
  simp [delivered]

namespace Link

variable {s s' : Link}

/-- A read callback moves a prefix of the unread bytes to the message callback, or closes the
connection at the end of the stream. -/
theorem Inv.of_read (h : s.Inv) {r : ReadResult} {io : Io} (hanswer : s.answers r = true)
    (hs : s.io.handleRead r = .ok io) :
    io.Good ∧ s.sent = delivered io.effects ++ s.unread.drop r.count ∧
      (closed io.effects = true → closed s.io.effects = true ∨ s.fin = true ∧ s.unread = []) := by
  rcases Io.handleRead_cases h.good.input hs with
    ⟨errno, rfl, rfl⟩ | ⟨rfl, input, hinv, hclose⟩ | ⟨bytes, rfl, -, hread⟩
  · exact ⟨h.good, h.stream, .inl⟩
  · have hend : s.fin = true ∧ s.unread = [] := by
      simp only [answers, Bool.and_eq_true, List.isEmpty_nil, Bool.not_true, Bool.false_or,
        List.isEmpty_iff] at hanswer
      exact hanswer.2.symm
    refine ⟨?_, ?_, fun _ => .inr hend⟩
    · have hread : Io.Good { s.io with conn := { s.io.conn with inputBuffer := input } } :=
        h.good.of_same h.good.output hinv rfl rfl rfl
      exact hread.of_closedAfter hclose
    · rw [delivery_of_closedAfter hclose]
      exact h.stream
  · simp only [answers, Bool.and_eq_true, List.isPrefixOf_iff_prefix, decide_eq_true_eq] at hanswer
    obtain ⟨⟨⟨rest, hprefix⟩, hoffer⟩, -⟩ := hanswer
    obtain ⟨input, hinv, hcontent, rfl⟩ := hread hoffer
    have hsame : closed (s.io.effects ++ [.messageCallback input.content bytes.length]) =
        closed s.io.effects := by
      rw [closed_append, Bool.or_eq_left_iff_imp]
      simp [closed]
    refine ⟨h.good.of_same h.good.output hinv hsame rfl rfl, ?_, fun hc => .inl (hsame ▸ hc)⟩
    rw [h.stream, ← hprefix, delivered_append, hcontent, delivered_read, ReadResult.count,
      List.drop_left, List.append_assoc]

/-- The mask of an event is the same before and behind its read callback. -/
theorem Inv.reading_mask (h : s.Inv) {revents : Mask} (hphase : s.phase = .reported revents) :
    ∀ m, EventPhase.reading revents = .reported m ∨ EventPhase.reading revents = .reading m →
      hasAny m EPOLLERR = false ∧ hasAny m (EPOLLHUP ||| EPOLLRDHUP) = hasAny m EPOLLHUP ∧
        (hasAny m EPOLLHUP = true → s.fin = true) := by
  rintro m (hm | hm)
  · contradiction
  · rw [← EventPhase.reading.inj hm]
    exact h.mask revents (.inl hphase)

/-- The dispatch of a hang-up closes, and loses what is unread. -/
theorem Inv.of_hangup (h : s.Inv) {revents : Mask} (hphase : s.phase = .reported revents)
    (hhang : hasAny revents EPOLLHUP = true) {io : Io} (hs : s.io.handleClose = .ok io) :
    Link.Inv { s with io := io, phase := .reading revents } ∧
      (Delivers { s with io := io, phase := .reading revents } ↔ s.unread = []) := by
  have hclose := Io.handleClose_closed hs
  have hfin := (h.mask revents (.inl hphase)).2.2 hhang
  have h' : Link.Inv { s with io := io, phase := .reading revents } := by
    refine ⟨h.good.of_closedAfter hclose, ?_, fun _ => hfin, h.reading_mask hphase⟩
    rw [delivery_of_closedAfter hclose]
    exact h.stream
  refine ⟨h', h'.delivers_iff.trans ?_⟩
  simp [hclose.closed]

/-- The dispatch of a read keeps the invariant and delivery. -/
theorem Inv.of_readable (h : s.Inv) (hdelivers : Delivers s) {revents : Mask}
    (hphase : s.phase = .reported revents) {r : ReadResult} {io : Io}
    (hanswer : s.answers r = true) (hs : s.io.handleRead r = .ok io) :
    Link.Inv { s with io := io, unread := s.unread.drop r.count, phase := .reading revents } ∧
      Delivers { s with io := io, unread := s.unread.drop r.count, phase := .reading revents } := by
  obtain ⟨hgood, hstream, hclosed⟩ := h.of_read hanswer hs
  have h' : Link.Inv
      { s with io := io, unread := s.unread.drop r.count, phase := .reading revents } :=
    ⟨hgood, hstream, fun hc => (hclosed hc).elim h.ended And.left, h.reading_mask hphase⟩
  refine ⟨h', h'.delivers_iff.mpr fun hc => ?_⟩
  obtain hc | ⟨-, hnil⟩ := hclosed hc
  · simp [h.delivers_iff.mp hdelivers hc]
  · simp [hnil]

/-- The read half of the dispatch keeps the invariant, and delivery with it exactly when it does not
hang up on unread bytes. -/
theorem Inv.of_eventRead (h : s.Inv) (hdelivers : Delivers s) {r : ReadResult}
    (hstep : s.step (.eventRead r) = some s') :
    s'.Inv ∧ (Delivers s' ↔ hangsUpDrained s (.eventRead r)) := by
  unfold step at hstep
  dsimp only at hstep
  split at hstep
  · rename_i revents hphase
    split at hstep
    · rename_i hanswer
      obtain ⟨io, hio, rfl⟩ := Option.map_eq_some_iff.mp hstep
      rw [toOption_eq_some] at hio
      obtain ⟨herr, hhup, -⟩ := h.mask revents (.inl hphase)
      have hdrained : hangsUpDrained s (.eventRead r) ↔
          (hasAny revents EPOLLHUP = true → s.unread = []) := by
        simp only [hangsUpDrained, hphase, EventPhase.reported.injEq, forall_eq']
      rw [hdrained]
      unfold Io.handleEventRead at hio
      rw [if_neg (by simp [herr]), hhup] at hio
      cases hhang : hasAny revents EPOLLHUP with
      | true =>
        rw [if_pos hhang] at hio
        have hcount : readCount revents r = 0 := by simp [readCount, hhup, hhang]
        obtain ⟨h', hiff⟩ := h.of_hangup hphase hhang hio
        rw [hcount, List.drop_zero]
        exact ⟨h', hiff.trans (by simp)⟩
      | false =>
        rw [if_neg (by simp [hhang])] at hio
        split at hio
        · rename_i hin
          have hcount : readCount revents r = r.count := by
            simp [readCount, herr, hhup, hhang, hin]
          obtain ⟨h', hdelivers'⟩ := h.of_readable hdelivers hphase hanswer hio
          rw [hcount]
          exact ⟨h', iff_of_true hdelivers' (by simp)⟩
        · rename_i hin
          obtain rfl := Except.ok.inj hio
          have hcount : readCount revents r = 0 := by simp [readCount, hin]
          simp only [hcount, List.drop_zero]
          exact ⟨⟨h.good, h.stream, h.ended, h.reading_mask hphase⟩, iff_of_true hdelivers (by simp)⟩
    · contradiction
  · contradiction
  · contradiction

/-- A poll reports a mask in which nothing has failed, and a hang-up only behind the end of the
stream. -/
theorem report_mask {writable : Bool} {revents : Mask} (h : s.report writable = some revents) :
    hasAny revents EPOLLERR = false ∧
      hasAny revents (EPOLLHUP ||| EPOLLRDHUP) = hasAny revents EPOLLHUP ∧
      (hasAny revents EPOLLHUP = true → s.fin = true) := by
  obtain ⟨⟨events, address⟩, -, hmask⟩ := Option.bind_eq_some_iff.mp h
  dsimp only at hmask
  split at hmask
  · contradiction
  · rw [← Option.some.inj hmask]
    obtain ⟨herr, hhup, hhang⟩ := pollMask_bits
      (hasAny events EPOLLIN && (!s.unread.isEmpty || s.fin))
      (s.fin && shut s.io.effects) (hasAny events EPOLLOUT && writable)
    refine ⟨herr, hhup.trans hhang.symm, fun hset => ?_⟩
    rw [hhang, Bool.and_eq_true] at hset
    exact hset.1

/-- A call that neither delivers nor closes. -/
theorem delivers_of_same {io : Io} (h : Delivers s)
    (hdelivered : delivered io.effects = delivered s.io.effects)
    (hclosed : closed io.effects = closed s.io.effects) (phase : EventPhase) :
    Delivers { s with io := io, phase := phase } := by
  unfold Delivers
  rw [hdelivered, hclosed]
  exact h

/-- One step keeps the invariant, and delivery with it exactly when it does not hang up on unread
bytes. -/
theorem Inv.step (h : s.Inv) (hdelivers : Delivers s) {label : LinkLabel}
    (hstep : s.step label = some s') : s'.Inv ∧ (Delivers s' ↔ hangsUpDrained s label) := by
  have open_of_fin (hfin : s.fin = false) : closed s.io.effects = false := by
    rw [← Bool.not_eq_true]
    intro hc
    rw [h.ended hc] at hfin
    contradiction
  cases label with
  | peerSend bytes =>
    unfold Link.step at hstep
    dsimp only at hstep
    split at hstep
    · contradiction
    · rename_i hfin
      obtain rfl := Option.some.inj hstep
      have hopen := open_of_fin (Bool.not_eq_true _ ▸ hfin)
      refine ⟨⟨h.good, ?_, h.ended, h.mask⟩, iff_of_true (fun hc => ?_) trivial⟩
      · simp [h.stream]
      · simp [hopen] at hc
  | peerFin =>
    unfold Link.step at hstep
    dsimp only at hstep
    split at hstep
    · contradiction
    · obtain rfl := Option.some.inj hstep
      refine ⟨⟨h.good, h.stream, fun _ => rfl, fun revents hr => ?_⟩, iff_of_true hdelivers trivial⟩
      exact ⟨(h.mask revents hr).1, (h.mask revents hr).2.1, fun _ => rfl⟩
  | poll writable =>
    unfold Link.step at hstep
    dsimp only at hstep
    split at hstep
    · obtain ⟨revents, hreport, rfl⟩ := Option.map_eq_some_iff.mp hstep
      refine ⟨⟨h.good, h.stream, h.ended, ?_⟩, iff_of_true hdelivers trivial⟩
      rintro m (hm | hm)
      · rw [← EventPhase.reported.inj hm]
        exact report_mask hreport
      · contradiction
    · contradiction
    · contradiction
  | eventRead r => exact h.of_eventRead hdelivers hstep
  | eventWrite w =>
    unfold Link.step at hstep
    dsimp only at hstep
    split at hstep
    · split at hstep
      · rename_i hfits
        obtain ⟨io, hio, rfl⟩ := Option.map_eq_some_iff.mp hstep
        obtain ⟨hgood, hdel, hclosed⟩ :=
          delivery_of_eventWrite h.good hfits (toOption_eq_some.mp hio)
        refine ⟨⟨hgood, hdel ▸ h.stream, hclosed ▸ h.ended, ?_⟩,
          iff_of_true (delivers_of_same hdelivers hdel hclosed .idle) trivial⟩
        rintro m (hm | hm) <;> contradiction
      · contradiction
    · contradiction
    · contradiction
  | call c =>
    unfold Link.step at hstep
    dsimp only at hstep
    split at hstep
    · rename_i huser
      obtain ⟨io, hio, rfl⟩ := Option.map_eq_some_iff.mp hstep
      obtain ⟨hdel, hclosed⟩ := delivery_of_call h.good huser hio
      exact ⟨⟨h.good.step hio, hdel ▸ h.stream, hclosed ▸ h.ended, h.mask⟩,
        iff_of_true (delivers_of_same hdelivers hdel hclosed s.phase) trivial⟩
    · contradiction

end Link

/-- A new link has delivered everything, which is nothing. -/
theorem opened_inv (o : Opening) : (Link.opened o).Inv ∧ Delivers (Link.opened o) := by
  have h : (Link.opened o).Inv := by
    refine ⟨o.established_good, rfl, fun hc => ?_, ?_⟩
    · simp [Link.opened, Opening.established, closed] at hc
    · rintro m (hm | hm) <;> contradiction
  exact ⟨h, h.delivers_iff.mpr fun _ => rfl⟩

/-- In every state of a run in which `handleClose` has run, every byte the peer sent was given to the
message callback, exactly when no event with `EPOLLHUP` is dispatched while bytes are unread. -/
theorem delivery_iff (o : Opening) (labels : List LinkLabel) :
    Everywhere Link.step Delivers (Link.opened o) labels ↔
      Along Link.step hangsUpDrained (Link.opened o) labels := by
  refine everywhere_iff_along (I := fun s => s.Inv ∧ Delivers s) (fun s h => h.2) ?_ ?_
    labels (opened_inv o)
  · intro s label s' hs hdrained hstep
    obtain ⟨h, hdelivers⟩ := hs
    obtain ⟨h', hiff⟩ := h.step hdelivers hstep
    exact ⟨h', hiff.mpr hdrained⟩
  · intro s label s' hs hdrained hstep hdelivers'
    obtain ⟨h, hdelivers⟩ := hs
    exact hdrained ((h.step hdelivers hstep).2.mp hdelivers')

/-- The peer answers our half-close with one byte and its own: the byte is lost. -/
theorem delivery_lost_at_hangup :
    ¬ Everywhere Link.step Delivers (Link.opened Opening.fresh)
      [.call .shutdown, .peerSend [97], .peerFin, .poll false, .eventRead (.failed EWOULDBLOCK)] := by
  decide +kernel

end CcMuduo
