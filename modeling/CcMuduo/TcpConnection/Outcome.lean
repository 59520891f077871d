import CcMuduo.TcpConnection

/-!
# What a function does to a connection

For each function of the connection, one lemma says everything a completed call can have done to
the state, the two buffers, the interest bits, the poller and the recorded effects. The proofs about
runs use these and never unfold a function of the connection.
-/

namespace CcMuduo

open Foundation

/-- The bytes the kernel has taken, in order. -/
def written (effects : List Effect) : List UInt8 :=
  effects.flatMap fun
    | .write bytes => bytes
    | _ => []

/-- `handleClose` has run. -/
def closed (effects : List Effect) : Bool := effects.contains .closeCallback

/-- The effects of sending: no callback is started and the write side stays open. -/
def Effect.isSend : Effect → Bool
  | .write _ | .formatLiteral _ | .queueWriteComplete | .queueHighWaterMark _ => true
  | _ => false

@[simp] theorem written_append (l₁ l₂ : List Effect) :
    written (l₁ ++ l₂) = written l₁ ++ written l₂ := by
  simp [written]

@[simp] theorem closed_append (l₁ l₂ : List Effect) :
    closed (l₁ ++ l₂) = (closed l₁ || closed l₂) := by
  rw [Bool.eq_iff_iff]
  simp [closed, List.mem_append]

/-- Sending never runs `handleClose`. -/
theorem closed_of_isSend {l : List Effect} (h : ∀ e ∈ l, e.isSend = true) : closed l = false := by
  rw [closed, ← Bool.not_eq_true, List.contains_iff_mem]
  intro hmem
  simpa [Effect.isSend] using h _ hmem

/-- The message shifted by one byte: where `data + nwroter` points after a failed `::write`. -/
def Message.shifted (msg : Message) : List UInt8 := msg.window (-1) msg.bytes.length

/-- The bytes behind the first `n` of a message. -/
theorem Message.window_drop (msg : Message) {n : ℕ} :
    msg.window n (msg.bytes.length - n) = msg.bytes.drop n := by
  have h : ((n : ℤ) + 1).toNat = n + 1 := by omega
  rw [window, h, List.drop_succ_cons, List.take_of_length_le (by simp)]

/-- A window of at most the message's length fits into a vector. -/
theorem Message.window_length_le (msg : Message) (offset : ℤ) {count : ℕ}
    (h : count ≤ msg.bytes.length) : (msg.window offset count).length ≤ maxSize := by
  rw [window, List.length_take]
  exact (Nat.min_le_left _ _).trans (h.trans msg.fits)

/-- A shifted message is as long as the message. -/
@[simp] theorem Message.shifted_length (msg : Message) : msg.shifted.length = msg.bytes.length := by
  simp [shifted, window]

/-- The failed `::write` ends in `handleClose`: neither test of `errno` reads `EWOULDBLOCK`, and the
second reads `EPIPE` or `ECONNRESET`. -/
def WriteResult.closes (log : ErrnoTrail) : WriteResult → Bool
  | .accepted _ => false
  | .failed errno =>
    log.afterLog errno != EWOULDBLOCK &&
      (log.afterFormat (log.afterLog errno) == EPIPE ||
        log.afterFormat (log.afterLog errno) == ECONNRESET)

/-- The part of the message that a direct `::write` hands to the kernel. -/
def WriteResult.taken (msg : Message) : WriteResult → List UInt8
  | .accepted n => msg.bytes.take n
  | .failed _ => []

/-- What `sendInLoop` keeps for later after a direct `::write`. -/
def WriteResult.kept (msg : Message) : WriteResult → List UInt8
  | .accepted n => msg.bytes.drop n
  | .failed _ => msg.shifted

/-- The kernel takes no more than it is offered. -/
def WriteResult.fits (len : ℕ) : WriteResult → Bool
  | .accepted n => decide (n ≤ len)
  | .failed _ => true

namespace Io

variable {s s' : Io}

/-- Reporting a channel to the poller changes the poller and the channel's index, and nothing else. -/
theorem onChannel_update {m : Mask → Mask}
    (h : s.onChannel (fun c p => p.updateChannel { c with events := m c.events }) = .ok s') :
    ∃ p index,
      s.poller.updateChannel { s.conn.channel with events := m s.conn.channel.events } =
        .ok (p, { s.conn.channel with events := m s.conn.channel.events, index := index }) ∧
      s' = { s with
        poller := p
        conn := { s.conn with channel := { s.conn.channel with
          events := m s.conn.channel.events
          index := index } } } := by
  obtain ⟨⟨p, c⟩, hc, heq⟩ := bind_eq_ok.mp h
  simp only [pure_eq_ok, Except.ok.injEq] at heq
  subst heq
  have hupdate : s.poller.updateChannel
      { s.conn.channel with events := m s.conn.channel.events } = .ok (p, c) := hc
  obtain ⟨index, rfl⟩ := EpollPoller.updateChannel_channel hupdate
  exact ⟨p, index, hupdate, rfl⟩

/-- Queueing a user callback under a condition adds at most an effect of sending that writes
nothing. -/
theorem emit_ite (mark : Prop) [Decidable mark] {e : Effect} (hsend : e.isSend = true)
    (hwrite : CcMuduo.written [e] = []) :
    ∃ new, (if mark then s.emit e else s) = { s with effects := s.effects ++ new } ∧
      CcMuduo.written new = [] ∧ ∀ e' ∈ new, e'.isSend = true := by
  split
  · exact ⟨[e], rfl, hwrite, by simpa using hsend⟩
  · exact ⟨[], by rw [List.append_nil], rfl, by simp⟩

/-- Having run `handleClose` after some other effects: the state is `kDisconnected`, no event is of
interest, and both callbacks have been started. -/
def ClosedAfter (s s' : Io) (new : List Effect) : Prop :=
  ∃ p index,
    s.poller.updateChannel { s.conn.channel with events := kNoneEvent } =
      .ok (p, { s.conn.channel with events := kNoneEvent, index := index }) ∧
    s' = {
    conn := { s.conn with
      state := .kDisconnected
      channel := { s.conn.channel with events := kNoneEvent, index := index } }
    poller := p
    effects := s.effects ++ new ++ [.connectionCallback false, .closeCallback] }

/-- What `handleClose` does. -/
theorem handleClose_closed (h : s.handleClose = .ok s') : ClosedAfter s s' [] := by
  obtain ⟨s₁, h₁, heq⟩ := bind_eq_ok.mp h
  obtain ⟨p, index, hupdate, rfl⟩ := onChannel_update (m := fun _ => kNoneEvent) h₁
  simp only [pure_eq_ok, Except.ok.injEq] at heq
  subst heq
  exact ⟨p, index, hupdate, by simp [emit, connected, setState]⟩

/-- The channel and the poller after one report to the poller, or none. -/
def Polled (s s' : Io) : Prop :=
  s'.poller = s.poller ∧ s'.conn.channel = s.conn.channel ∨
    s.poller.updateChannel { s.conn.channel with events := s'.conn.channel.events } =
      .ok (s'.poller, s'.conn.channel)

/-- What sending can do: `taken` went to the kernel, `rest` was put behind the content of
`outputBuffer`, and the write interest is on if anything was put there. -/
structure Sent (s s' : Io) (taken rest : List UInt8) : Prop where
  state : s'.conn.state = s.conn.state
  input : s'.conn.inputBuffer = s.conn.inputBuffer
  inv : s'.conn.outputBuffer.Inv
  content : s'.conn.outputBuffer.content = s.conn.outputBuffer.content ++ rest
  written : written s'.effects = written s.effects ++ taken
  reading : s'.conn.channel.isReading = s.conn.channel.isReading
  writing : s'.conn.channel.isWriting = (s.conn.channel.isWriting || !rest.isEmpty)
  polled : Polled s s'
  sends : ∃ new, s'.effects = s.effects ++ new ∧ ∀ e ∈ new, e.isSend = true

/-- The tail of `sendInLoop` puts the window behind the content. -/
theorem queueRest_sent {msg : Message} {nwroter : ℤ} {remaining : ℕ} (hinv : s.conn.outputBuffer.Inv)
    (hle : remaining ≤ msg.bytes.length)
    (hne : msg.window nwroter remaining ≠ [])
    (h : s.queueRest msg nwroter remaining = .ok s') :
    Sent s s' [] (msg.window nwroter remaining) := by
  obtain ⟨out, hout, h⟩ := bind_eq_ok.mp h
  obtain ⟨hinv', hcontent⟩ := hinv.of_append (msg.window_length_le nwroter hle) hout
  obtain ⟨new, hnew, hwritten, hsend⟩ := emit_ite (s := s)
    (s.conn.highWaterMark ≤ sizeAdd s.conn.outputBuffer.readableBytes remaining ∧
      s.conn.outputBuffer.readableBytes < s.conn.highWaterMark ∧ s.conn.highWaterMarkCallback)
    (e := .queueHighWaterMark (sizeAdd s.conn.outputBuffer.readableBytes remaining)) rfl rfl
  rw [hnew] at h
  have hempty : (!(msg.window nwroter remaining).isEmpty) = true := by simpa using hne
  dsimp only at h
  split at h
  · obtain ⟨p, index, hupdate, rfl⟩ := onChannel_update (m := fun e => e ||| kWriteEvent) h
    refine ⟨rfl, rfl, hinv', hcontent, by simp [hwritten], ?_, ?_, .inr hupdate, new, rfl, hsend⟩
    · exact hasAny_or_of_disjoint _ (by decide)
    · rw [hempty, Bool.or_true]
      exact hasAny_or_self _ (by decide)
  · rename_i hon
    simp only [pure_eq_ok, Except.ok.injEq] at h
    subst h
    refine ⟨rfl, rfl, hinv', hcontent, by simp [hwritten], rfl, ?_, .inl ⟨rfl, rfl⟩, new, rfl, hsend⟩
    simp only [Bool.not_eq_true, Bool.not_eq_false'] at hon
    rw [hon, Bool.true_or]

/-- What the direct `::write` leaves for the rest of `sendInLoop`. -/
theorem directWrite_eq (s : Io) {msg : Message} {w : WriteResult} (log : ErrnoTrail)
    (hfits : w.fits msg.bytes.length = true) :
    ∃ new nwroter remaining,
      s.directWrite msg log w =
        ({ s with effects := s.effects ++ new }, nwroter, remaining, w.closes log) ∧
      CcMuduo.written new = w.taken msg ∧ (∀ e ∈ new, e.isSend = true) ∧
      msg.window nwroter remaining = w.kept msg ∧ remaining = (w.kept msg).length := by
  cases w with
  | accepted n =>
    have hn : n ≤ msg.bytes.length := by simpa [WriteResult.fits] using hfits
    have hsub : sizeSub msg.bytes.length n = msg.bytes.length - n := by
      have hmax := msg.fits
      simp only [maxSize] at hmax
      exact wordSub_eq hn (by omega)
    obtain ⟨new, hnew, hwritten, hsend⟩ := emit_ite (s := s.emit (.write (msg.bytes.take n)))
      (sizeSub msg.bytes.length n = 0 ∧ s.conn.writeCompleteCallback)
      (e := .queueWriteComplete) rfl rfl
    refine ⟨.write (msg.bytes.take n) :: new, n, msg.bytes.length - n, ?_, ?_, ?_, ?_, ?_⟩
    · rw [directWrite, hnew, hsub]
      simp [emit, WriteResult.closes]
    · change msg.bytes.take n ++ CcMuduo.written new = msg.bytes.take n
      rw [hwritten, List.append_nil]
    · simpa [Effect.isSend] using hsend
    · exact msg.window_drop
    · simp [WriteResult.kept]
  | failed errno =>
    by_cases hblock : log.afterLog errno = EWOULDBLOCK
    · refine ⟨[], -1, msg.bytes.length, ?_, rfl, by simp, rfl, by simp [WriteResult.kept]⟩
      simp [directWrite, hblock, WriteResult.closes]
    · refine ⟨[.formatLiteral (log.afterLog errno)], -1, msg.bytes.length, ?_, rfl,
        by simp [Effect.isSend], rfl, by simp [WriteResult.kept]⟩
      simp [directWrite, hblock, WriteResult.closes, emit]

/-- The end of `sendInLoop`: what the first write has not taken is kept. -/
theorem rest_sent {msg : Message} {nwroter : ℤ} {remaining : ℕ} {rest : List UInt8}
    (hinv : s.conn.outputBuffer.Inv) (hrest : msg.window nwroter remaining = rest)
    (hcount : remaining = rest.length) (hle : remaining ≤ msg.bytes.length)
    (h : (if 0 < remaining then s.queueRest msg nwroter remaining else .ok s) = .ok s') :
    Sent s s' [] rest := by
  split at h
  · rename_i hpos
    have hne : msg.window nwroter remaining ≠ [] := by
      rw [hrest, ← List.length_pos_iff, ← hcount]
      exact hpos
    have hsent := queueRest_sent hinv hle hne h
    rwa [hrest] at hsent
  · rename_i hzero
    have hnil : rest = [] := by
      rw [← List.length_eq_zero_iff, ← hcount]
      omega
    rw [← Except.ok.inj h, hnil]
    exact ⟨rfl, rfl, hinv, by simp, by simp, rfl, by simp, .inl ⟨rfl, rfl⟩, [], by simp, by simp⟩

/-- Sending behind a first write that took some bytes. -/
theorem Sent.behind {new : List Effect} {taken rest : List UInt8}
    (h : Sent { s with effects := s.effects ++ new } s' [] rest)
    (hwritten : CcMuduo.written new = taken) (hsend : ∀ e ∈ new, e.isSend = true) :
    Sent s s' taken rest := by
  obtain ⟨hstate, hinput, hinv, hcontent, hwr, hreading, hwriting, hpolled, more, hmore, hall⟩ := h
  refine ⟨hstate, hinput, hinv, hcontent, ?_, hreading, hwriting, hpolled, new ++ more, ?_, ?_⟩
  · rw [hwr, written_append, hwritten, List.append_nil]
  · rw [hmore, List.append_assoc]
  · intro e he
    exact (List.mem_append.mp he).elim (hsend e) (hall e)

/-- What `sendInLoop` can do: give up on a closed connection, close the connection after a failed
direct write, or send. -/
theorem sendInLoop_cases {msg : Message} {w : WriteResult} {log : ErrnoTrail}
    (hinv : s.conn.outputBuffer.Inv) (hfits : w.fits msg.bytes.length = true)
    (h : s.sendInLoop msg w log = .ok s') :
    (s.conn.state = .kDisconnected ∧ s' = s) ∨
    (s.conn.state ≠ .kDisconnected ∧ s.writesDirectly = true ∧ w.closes log = true ∧
      ∃ new, (∀ e ∈ new, e.isSend = true) ∧ ClosedAfter s s' new) ∨
    (s.conn.state ≠ .kDisconnected ∧ s.writesDirectly = true ∧ w.closes log = false ∧
      Sent s s' (w.taken msg) (w.kept msg)) ∨
    (s.conn.state ≠ .kDisconnected ∧ s.writesDirectly = false ∧ Sent s s' [] msg.bytes) := by
  unfold sendInLoop at h
  split at h
  · rename_i hstate
    exact .inl ⟨hstate, (Except.ok.inj h).symm⟩
  · rename_i hstate
    right
    unfold firstWrite at h
    cases hdirect : s.writesDirectly with
    | true =>
      obtain ⟨new, nwroter, remaining, heq, hwritten, hsend, hwindow, hcount⟩ :=
        s.directWrite_eq log hfits
      simp only [hdirect, if_true, heq] at h
      cases hcloses : w.closes log with
      | true =>
        left
        simp only [hcloses, if_true] at h
        obtain ⟨p, index, hupdate, rfl⟩ := handleClose_closed h
        exact ⟨hstate, rfl, rfl, new, hsend, p, index, hupdate, by simp⟩
      | false =>
        right; left
        simp only [hcloses, Bool.false_eq_true, if_false] at h
        have hle : remaining ≤ msg.bytes.length := by
          rw [hcount]
          cases w <;> simp [WriteResult.kept]
        have hrest := rest_sent (s := { s with effects := s.effects ++ new }) hinv hwindow hcount hle h
        exact ⟨hstate, rfl, rfl, hrest.behind hwritten hsend⟩
    | false =>
      right; right
      simp only [hdirect, Bool.false_eq_true, if_false] at h
      have hwindow : msg.window 0 msg.bytes.length = msg.bytes := by
        simpa using msg.window_drop (n := 0)
      exact ⟨hstate, rfl, rest_sent hinv hwindow rfl le_rfl h⟩

/-- A direct write finds nothing in `outputBuffer`. -/
theorem content_of_writesDirectly (hinv : s.conn.outputBuffer.Inv) (h : s.writesDirectly = true) :
    s.conn.outputBuffer.content = [] := by
  rw [← hinv.readableBytes_eq_zero_iff]
  simp only [writesDirectly, Bool.and_eq_true, beq_iff_eq] at h
  exact h.2

/-- After `handleClose` the close is on record, whatever was recorded before it. -/
theorem ClosedAfter.closed {new : List Effect} (h : ClosedAfter s s' new) :
    CcMuduo.closed s'.effects = true := by
  obtain ⟨p, index, -, rfl⟩ := h
  simp [CcMuduo.closed]

/-- What a drain does: the kernel took the whole content, the read interest is off, and the write
interest still on, so that a pending `shutdown` stays pending. -/
structure Drained (s s' : Io) : Prop where
  state : s'.conn.state = s.conn.state
  input : s'.conn.inputBuffer = s.conn.inputBuffer
  inv : s'.conn.outputBuffer.Inv
  content : s'.conn.outputBuffer.content = []
  written : written s'.effects = written s.effects ++ s.conn.outputBuffer.content
  reading : s'.conn.channel.isReading = false
  writing : s'.conn.channel.isWriting = true
  polled : Polled s s'
  sends : ∃ new, s'.effects = s.effects ++ new ∧ ∀ e ∈ new, e.isSend = true

/-- The `handleWrite` event empties `outputBuffer`. -/
def drains (s : Io) (w : WriteResult) : Prop :=
  s.conn.channel.isWriting = true ∧ 0 < s.conn.outputBuffer.readableBytes ∧
    w = .accepted s.conn.outputBuffer.readableBytes

instance (s : Io) (w : WriteResult) : Decidable (s.drains w) := by
  unfold drains
  infer_instance

/-- The bytes a `handleWrite` event moves to the kernel. -/
def moved (s : Io) (w : WriteResult) : List UInt8 :=
  if s.conn.channel.isWriting then (s.conn.outputBuffer.writeFd 0 w).2.2 else []

/-- What `handleWrite` does to an empty buffer: the read interest goes, and the write interest, which
is on, keeps a pending `shutdown` from closing the write side. -/
theorem drained_cases (hwriting : s.conn.channel.isWriting = true) (h : s.drained = .ok s') :
    ∃ p index new, (∀ e ∈ new, e.isSend = true) ∧ CcMuduo.written new = [] ∧
      s.poller.updateChannel
        { s.conn.channel with events := s.conn.channel.events &&& ~~~kReadEvent } =
        .ok (p, { s.conn.channel with
          events := s.conn.channel.events &&& ~~~kReadEvent, index := index }) ∧ s' = {
      conn := { s.conn with channel := { s.conn.channel with
        events := s.conn.channel.events &&& ~~~kReadEvent
        index := index } }
      poller := p
      effects := s.effects ++ new } := by
  obtain ⟨s₁, h₁, h⟩ := bind_eq_ok.mp h
  obtain ⟨p, index, hupdate, rfl⟩ := onChannel_update (m := fun e => e &&& ~~~kReadEvent) h₁
  have hstill : Channel.isWriting { s.conn.channel with
      events := s.conn.channel.events &&& ~~~kReadEvent
      index := index } = true := by
    rw [Channel.isWriting, hasAny_clear_of_disjoint _ (by decide)]
    exact hwriting
  refine ⟨p, index, if s.conn.writeCompleteCallback then [.queueWriteComplete] else [], ?_, ?_,
    hupdate, ?_⟩
  · split <;> simp [Effect.isSend]
  · split <;> rfl
  · cases hcomplete : s.conn.writeCompleteCallback <;>
      simp_all [emit, shutdownInLoop]

/-- What `handleWrite` does when the kernel has taken some bytes of the content: it drains the buffer
when these are all, and otherwise only moves them. -/
theorem consume_cases {n : ℕ} (hinv : s.conn.outputBuffer.Inv)
    (hwriting : s.conn.channel.isWriting = true) (hn : n ≤ s.conn.outputBuffer.content.length)
    (h : s.consume n (s.conn.outputBuffer.content.take n) = .ok s') :
    (n = s.conn.outputBuffer.content.length ∧ Drained s s') ∨
    (n < s.conn.outputBuffer.content.length ∧ s' = { s with
      conn := { s.conn with outputBuffer := s.conn.outputBuffer.retrieve n }
      effects := s.effects ++ [.write (s.conn.outputBuffer.content.take n)] }) := by
  have hout := hinv.retrieve n
  have hcontent := hinv.content_retrieve n
  have hleft := hout.readableBytes_eq
  rw [hcontent, List.length_drop] at hleft
  unfold consume at h
  rcases hn.eq_or_lt with hall | hpart
  · left
    refine ⟨hall, ?_⟩
    rw [if_pos (by simpa [emit] using by omega)] at h
    obtain ⟨p, index, new, hsend, hwritten, hupdate, rfl⟩ := drained_cases (s := { s with
      conn := { s.conn with outputBuffer := s.conn.outputBuffer.retrieve n }
      effects := s.effects ++ [.write (s.conn.outputBuffer.content.take n)] }) hwriting h
    refine ⟨rfl, rfl, hout, ?_, ?_, hasAny_clear_self _ _, ?_, .inr hupdate,
      .write (s.conn.outputBuffer.content.take n) :: new, by simp, ?_⟩
    · rw [← List.length_eq_zero_iff]
      change (s.conn.outputBuffer.retrieve n).content.length = 0
      rw [hcontent, List.length_drop]
      omega
    · have htake : s.conn.outputBuffer.content.take n = s.conn.outputBuffer.content := by
        rw [hall, List.take_length]
      simp only [written_append, hwritten, List.append_nil, htake]
      simp [CcMuduo.written]
    · rw [Channel.isWriting, hasAny_clear_of_disjoint _ (by decide)]
      exact hwriting
    · simpa [Effect.isSend] using hsend
  · right
    rw [if_neg (by simpa [emit] using by omega)] at h
    exact ⟨hpart, (Except.ok.inj h).symm⟩

/-- What `handleWrite` can do: drain the buffer, or move a proper part of it to the kernel and leave
state and interest bits alone. -/
theorem handleWrite_cases {w : WriteResult} (hinv : s.conn.outputBuffer.Inv)
    (hfits : w.fits s.conn.outputBuffer.readableBytes = true) (h : s.handleWrite w = .ok s') :
    (s.drains w ∧ Drained s s') ∨
    (¬ s.drains w ∧ ∃ out : Buffer, out.Inv ∧ s.conn.outputBuffer.content = s.moved w ++ out.content ∧
      (out.content = [] ↔ s.conn.outputBuffer.content = []) ∧
      ∃ new, (∀ e ∈ new, e.isSend = true) ∧ CcMuduo.written new = s.moved w ∧
        s' = { s with conn := { s.conn with outputBuffer := out }, effects := s.effects ++ new }) := by
  have hread := hinv.readableBytes_eq
  have same (hmoved : s.moved w = []) (heq : s' = s) : ∃ out : Buffer, out.Inv ∧
      s.conn.outputBuffer.content = s.moved w ++ out.content ∧
      (out.content = [] ↔ s.conn.outputBuffer.content = []) ∧
      ∃ new, (∀ e ∈ new, e.isSend = true) ∧ CcMuduo.written new = s.moved w ∧
        s' = { s with conn := { s.conn with outputBuffer := out }, effects := s.effects ++ new } :=
    ⟨_, hinv, by rw [hmoved]; rfl, Iff.rfl, [], by simp, by rw [hmoved]; rfl, by simp [heq]⟩
  unfold handleWrite at h
  cases hwriting : s.conn.channel.isWriting with
  | false =>
    simp only [hwriting, Bool.false_eq_true, if_false] at h
    exact .inr ⟨by simp [drains, hwriting], same (by simp [moved, hwriting]) (Except.ok.inj h).symm⟩
  | true =>
    simp only [hwriting, if_true] at h
    cases w with
    | failed errno =>
      change (if (0 : ℤ) < -1 then s.consume 0 [] else .ok s) = .ok s' at h
      rw [if_neg (by decide)] at h
      exact .inr ⟨by simp [drains], same (by simp [moved, Buffer.writeFd]) (Except.ok.inj h).symm⟩
    | accepted n =>
      have hn : n ≤ s.conn.outputBuffer.content.length := by
        rw [← hread]
        simpa [WriteResult.fits] using hfits
      have hmoved : s.moved (.accepted n) = s.conn.outputBuffer.content.take n := by
        simp [moved, hwriting, Buffer.writeFd]
      have hdrains : s.drains (.accepted n) ↔ 0 < n ∧ n = s.conn.outputBuffer.content.length := by
        rw [drains, hread, WriteResult.accepted.injEq]
        constructor
        · rintro ⟨-, hpos, rfl⟩
          exact ⟨hpos, rfl⟩
        · rintro ⟨hpos, rfl⟩
          exact ⟨hwriting, hpos, rfl⟩
      change (if (0 : ℤ) < (n : ℤ) then s.consume n (s.conn.outputBuffer.content.take n)
        else .ok s) = .ok s' at h
      rcases Nat.eq_zero_or_pos n with rfl | hpos
      · rw [if_neg (by decide)] at h
        exact .inr ⟨fun hd => absurd (hdrains.mp hd).1 (lt_irrefl 0),
          same (by rw [hmoved, List.take_zero]) (Except.ok.inj h).symm⟩
      · rw [if_pos (by exact_mod_cast hpos)] at h
        rcases consume_cases hinv hwriting hn h with ⟨hall, hdrain⟩ | ⟨hpart, rfl⟩
        · exact .inl ⟨hdrains.mpr ⟨hpos, hall⟩, hdrain⟩
        · have hcontent := hinv.content_retrieve n
          refine .inr ⟨fun hd => absurd (hdrains.mp hd).2 hpart.ne, _, hinv.retrieve n, ?_, ?_,
            [.write (s.conn.outputBuffer.content.take n)], by simp [Effect.isSend], ?_, rfl⟩
          · rw [hmoved, hcontent, List.take_append_drop]
          · rw [hcontent, List.drop_eq_nil_iff, ← List.length_eq_zero_iff]
            omega
          · rw [hmoved]
            simp [CcMuduo.written]

/-- What `handleRead` can do: nothing after an error, `handleClose` after an empty read, and the
message callback on the bytes it put behind the content of `inputBuffer`. -/
theorem handleRead_cases {r : ReadResult} (hinv : s.conn.inputBuffer.Inv)
    (h : s.handleRead r = .ok s') :
    (∃ errno, r = .failed errno ∧ s' = s) ∨
    (r = .received [] ∧ ∃ input : Buffer, input.Inv ∧
      ClosedAfter { s with conn := { s.conn with inputBuffer := input } } s' []) ∨
    ∃ bytes, r = .received bytes ∧ bytes ≠ [] ∧
      (bytes.length ≤ s.conn.inputBuffer.readOffer → ∃ input : Buffer, input.Inv ∧
        input.content = s.conn.inputBuffer.content ++ bytes ∧
        s' = { s with
          conn := { s.conn with inputBuffer := input }
          effects := s.effects ++ [.messageCallback input.content bytes.length] }) := by
  obtain ⟨⟨input, n, errno⟩, hfd, h⟩ := bind_eq_ok.mp h
  dsimp only at h
  cases r with
  | failed errno' =>
    simp only [Buffer.readFd_failed, Except.ok.injEq, Prod.mk.injEq] at hfd
    obtain ⟨rfl, rfl, -⟩ := hfd
    rw [if_neg (by decide), if_neg (by decide)] at h
    exact .inl ⟨errno', rfl, (Except.ok.inj h).symm⟩
  | received bytes =>
    right
    cases bytes with
    | nil =>
      left
      obtain ⟨hinv', -, hn⟩ := hinv.of_readFd (by simp) hfd
      replace hn : n = 0 := hn
      subst hn
      rw [if_neg (by decide), if_pos rfl] at h
      exact ⟨rfl, input, hinv', handleClose_closed h⟩
    | cons byte rest =>
      right
      refine ⟨byte :: rest, rfl, by simp, fun hoffer => ?_⟩
      obtain ⟨hinv', hcontent, hn⟩ := hinv.of_readFd hoffer hfd
      subst hn
      rw [if_pos (by simp)] at h
      exact ⟨input, hinv', hcontent, (Except.ok.inj h).symm⟩

end Io

end CcMuduo
