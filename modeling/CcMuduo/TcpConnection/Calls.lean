import CcMuduo.TcpConnection.Outcome

/-!
# The calls of the loop thread

The set-up of the runs: the calls that can reach a connection on its loop thread, what the kernel may
answer to each, what every call keeps, and the connection that `connectEstablished` leaves.
-/

namespace CcMuduo

open Foundation

/-- A call that reaches the connection on its loop thread. `sendInLoop` is also the functor that
`send` queues on other threads, and `retrieve` is the message callback taking bytes out of
`inputBuffer`. -/
inductive ConnCall where
  | send (msg : Message) (w : WriteResult) (log : ErrnoTrail)
  | sendInLoop (msg : Message) (w : WriteResult) (log : ErrnoTrail)
  | shutdown
  | handleRead (r : ReadResult)
  | handleWrite (w : WriteResult)
  | retrieve (len : ℕ)

/-- The kernel's side of a call: it takes and stores no more bytes than it is offered. -/
def ConnCall.legal (s : Io) : ConnCall → Bool
  | .send msg w _ | .sendInLoop msg w _ => w.fits msg.bytes.length
  | .handleWrite w => w.fits s.conn.outputBuffer.readableBytes
  | .handleRead (.received bytes) => decide (bytes.length ≤ s.conn.inputBuffer.readOffer)
  | .handleRead (.failed _) | .shutdown | .retrieve _ => true

/-- The calls that user code makes on the loop of the connection. -/
def ConnCall.byUser : ConnCall → Bool
  | .send _ _ _ | .shutdown | .retrieve _ => true
  | .sendInLoop _ _ _ | .handleRead _ | .handleWrite _ => false

/-- The function a call runs. -/
def ConnCall.exec (s : Io) : ConnCall → Except Fault Io
  | .send msg w log => s.send msg w log
  | .sendInLoop msg w log => s.sendInLoop msg w log
  | .shutdown => .ok s.shutdown
  | .handleRead r => s.handleRead r
  | .handleWrite w => s.handleWrite w
  | .retrieve len =>
    .ok { s with conn := { s.conn with inputBuffer := s.conn.inputBuffer.retrieve len } }

/-- One call on the loop thread; a fault ends the run. -/
def callStep (s : Io) (call : ConnCall) : Option Io :=
  if call.legal s then (call.exec s).toOption else none

/-- A completed call was legal and its function completed. -/
theorem callStep_eq_some {s s' : Io} {call : ConnCall} :
    callStep s call = some s' ↔ call.legal s = true ∧ call.exec s = .ok s' := by
  unfold callStep
  split <;> simp_all [toOption_eq_some]

/-- What every call keeps: the invariants of the buffers, and that a closed connection is one in
`kDisconnected`, without a write interest. -/
structure Io.Good (s : Io) : Prop where
  output : s.conn.outputBuffer.Inv
  input : s.conn.inputBuffer.Inv
  closed_iff : closed s.effects = true ↔ s.conn.state = .kDisconnected
  closed_writing : closed s.effects = true → s.conn.channel.isWriting = false

/-- A call only adds to what is on record. -/
theorem Io.effects_grow {s s' : Io} (houtput : s.conn.outputBuffer.Inv) (hinput : s.conn.inputBuffer.Inv)
    {call : ConnCall} (hs : callStep s call = some s') : ∃ new, s'.effects = s.effects ++ new := by
  obtain ⟨hlegal, hexec⟩ := callStep_eq_some.mp hs
  have of_sendInLoop {msg w log} (hfits : w.fits msg.bytes.length = true)
      (hs : s.sendInLoop msg w log = .ok s') : ∃ new, s'.effects = s.effects ++ new := by
    rcases sendInLoop_cases houtput hfits hs with
      ⟨-, rfl⟩ | ⟨-, -, -, new, -, p, index, -, rfl⟩ | ⟨-, -, -, hsent⟩ | ⟨-, -, hsent⟩
    · exact ⟨[], by simp⟩
    · exact ⟨new ++ [.connectionCallback false, .closeCallback], by simp⟩
    · exact hsent.sends.imp fun _ hnew => hnew.1
    · exact hsent.sends.imp fun _ hnew => hnew.1
  cases call with
  | send msg w log =>
    simp only [ConnCall.exec, send] at hexec
    split at hexec
    · exact of_sendInLoop hlegal hexec
    · exact ⟨[], by simp [← Except.ok.inj hexec]⟩
  | sendInLoop msg w log => exact of_sendInLoop hlegal hexec
  | shutdown =>
    rw [← Except.ok.inj hexec]
    unfold shutdown shutdownInLoop
    split
    · split
      · exact ⟨_, rfl⟩
      · exact ⟨[], by simp [setState]⟩
    · exact ⟨[], by simp⟩
  | handleRead r =>
    rcases handleRead_cases hinput hexec with
      ⟨-, -, rfl⟩ | ⟨-, input, hinv, p, index, -, rfl⟩ | ⟨bytes, rfl, -, hread⟩
    · exact ⟨[], by simp⟩
    · exact ⟨_, List.append_assoc _ _ _⟩
    · obtain ⟨input, -, -, rfl⟩ := hread (by simpa [ConnCall.legal] using hlegal)
      exact ⟨_, rfl⟩
  | handleWrite w =>
    rcases handleWrite_cases houtput hlegal hexec with
      ⟨-, hdrain⟩ | ⟨-, out, hinv, -, -, new, -, -, rfl⟩
    · exact hdrain.sends.imp fun _ hnew => hnew.1
    · exact ⟨new, rfl⟩
  | retrieve len => exact ⟨[], by simp [← Except.ok.inj hexec]⟩

namespace Io.Good

variable {s s' : Io}

/-- A call that keeps state and channel, and does not close the connection, keeps `Good`. -/
theorem of_same (h : s.Good) (houtput : s'.conn.outputBuffer.Inv) (hinput : s'.conn.inputBuffer.Inv)
    (hclosed : closed s'.effects = closed s.effects) (hstate : s'.conn.state = s.conn.state)
    (hchannel : s'.conn.channel = s.conn.channel) : s'.Good := by
  refine ⟨houtput, hinput, ?_, ?_⟩
  · rw [hclosed, hstate]
    exact h.closed_iff
  · rw [hclosed, hchannel]
    exact h.closed_writing

/-- Sending on an open connection leaves it open. -/
theorem open_of_sent {taken rest : List UInt8} (h : s.Good) (hstate : s.conn.state ≠ .kDisconnected)
    (hsent : Sent s s' taken rest) : closed s'.effects = false := by
  obtain ⟨new, hnew, hsend⟩ := hsent.sends
  rw [hnew, closed_append, closed_of_isSend hsend, Bool.or_false, ← Bool.not_eq_true, h.closed_iff]
  exact hstate

/-- Sending keeps `Good`. -/
theorem of_sent {taken rest : List UInt8} (h : s.Good) (hstate : s.conn.state ≠ .kDisconnected)
    (hsent : Sent s s' taken rest) : s'.Good := by
  have hopen := h.open_of_sent hstate hsent
  refine ⟨hsent.inv, hsent.input ▸ h.input, iff_of_false (by simp [hopen]) ?_, by simp [hopen]⟩
  rw [hsent.state]
  exact hstate

/-- Closing keeps `Good`. -/
theorem of_closedAfter {new : List Effect} (h : s.Good) (hclose : ClosedAfter s s' new) :
    s'.Good := by
  have hclosed := hclose.closed
  obtain ⟨p, index, -, rfl⟩ := hclose
  exact ⟨h.output, h.input, iff_of_true hclosed rfl, fun _ => hasAny_zero _⟩

/-- `sendInLoop` keeps `Good`. -/
theorem of_sendInLoop {msg : Message} {w : WriteResult} {log : ErrnoTrail} (h : s.Good)
    (hfits : w.fits msg.bytes.length = true) (hs : s.sendInLoop msg w log = .ok s') : s'.Good := by
  rcases sendInLoop_cases h.output hfits hs with
    ⟨-, rfl⟩ | ⟨-, -, -, new, -, hclose⟩ | ⟨hstate, -, -, hsent⟩ | ⟨hstate, -, hsent⟩
  · exact h
  · exact h.of_closedAfter hclose
  · exact h.of_sent hstate hsent
  · exact h.of_sent hstate hsent

/-- A `handleWrite` that drains the buffer finds the connection open and leaves it open. -/
theorem open_of_drained (h : s.Good) {w : WriteResult} (hdrains : s.drains w)
    (hdrain : Drained s s') : closed s.effects = false ∧ closed s'.effects = false := by
  have hopen : closed s.effects = false := by
    rw [← Bool.not_eq_true]
    intro hclosed
    have := h.closed_writing hclosed
    rw [hdrains.1] at this
    contradiction
  obtain ⟨new, hnew, hsend⟩ := hdrain.sends
  exact ⟨hopen, by rw [hnew, closed_append, closed_of_isSend hsend, hopen, Bool.or_false]⟩

/-- `handleWrite` keeps `Good`. -/
theorem of_handleWrite {w : WriteResult} (h : s.Good)
    (hfits : w.fits s.conn.outputBuffer.readableBytes = true) (hs : s.handleWrite w = .ok s') :
    s'.Good := by
  rcases handleWrite_cases h.output hfits hs with
    ⟨hdrains, hdrain⟩ | ⟨-, out, hinv, -, -, new, hsend, -, rfl⟩
  · obtain ⟨hopen, hopen'⟩ := h.open_of_drained hdrains hdrain
    refine ⟨hdrain.inv, hdrain.input ▸ h.input, iff_of_false (by simp [hopen']) ?_,
      by simp [hopen']⟩
    rw [hdrain.state, ← h.closed_iff]
    simp [hopen]
  · exact h.of_same hinv h.input (by
      rw [closed_append, closed_of_isSend hsend, Bool.or_false]) rfl rfl

/-- `shutdown` does not close the connection. -/
theorem closed_shutdown (s : Io) : closed s.shutdown.effects = closed s.effects := by
  unfold shutdown shutdownInLoop
  split
  · split
    · simp only [emit, setState, closed_append]
      rw [Bool.or_eq_left_iff_imp]
      simp [closed]
    · rfl
  · rfl

/-- `shutdown` keeps `Good`. -/
theorem of_shutdown (h : s.Good) : s.shutdown.Good := by
  have hclosed := closed_shutdown s
  by_cases hstate : s.conn.state = .kConnected
  · have hopen : closed s.effects = false := by
      rw [← Bool.not_eq_true, h.closed_iff, hstate]
      simp
    rw [hopen] at hclosed
    refine ⟨?_, ?_, iff_of_false (by simp [hclosed]) ?_, by simp [hclosed]⟩ <;>
      unfold shutdown shutdownInLoop <;> rw [if_pos hstate] <;> split
    all_goals first | exact h.output | exact h.input | simp [emit, setState]
  · unfold shutdown
    rw [if_neg hstate]
    exact h

/-- `handleRead` keeps `Good`. -/
theorem of_handleRead {r : ReadResult} (h : s.Good) (hlegal : (ConnCall.handleRead r).legal s = true)
    (hs : s.handleRead r = .ok s') : s'.Good := by
  rcases handleRead_cases h.input hs with
    ⟨-, -, rfl⟩ | ⟨-, input, hinv, hclose⟩ | ⟨bytes, rfl, -, hread⟩
  · exact h
  · have hread : Io.Good { s with conn := { s.conn with inputBuffer := input } } :=
      h.of_same h.output hinv rfl rfl rfl
    exact hread.of_closedAfter hclose
  · obtain ⟨input, hinv, -, rfl⟩ := hread (by simpa [ConnCall.legal] using hlegal)
    exact h.of_same h.output hinv (by
      rw [closed_append, Bool.or_eq_left_iff_imp]
      simp [closed]) rfl rfl

/-- Every call keeps `Good`. -/
theorem step (h : s.Good) {call : ConnCall} (hs : callStep s call = some s') : s'.Good := by
  obtain ⟨hlegal, hexec⟩ := callStep_eq_some.mp hs
  cases call with
  | send msg w log =>
    simp only [ConnCall.exec, send] at hexec
    split at hexec
    · exact h.of_sendInLoop hlegal hexec
    · exact Except.ok.inj hexec ▸ h
  | sendInLoop msg w log => exact h.of_sendInLoop hlegal hexec
  | shutdown => exact Except.ok.inj hexec ▸ h.of_shutdown
  | handleRead r => exact h.of_handleRead hlegal hexec
  | handleWrite w => exact h.of_handleWrite hlegal hexec
  | retrieve len =>
    exact Except.ok.inj hexec ▸ h.of_same h.output (h.input.retrieve len) rfl rfl rfl

/-- The same of a connection that is in order. -/
theorem effects_grow (h : s.Good) {call : ConnCall} (hs : callStep s call = some s') :
    ∃ new, s'.effects = s.effects ++ new :=
  Io.effects_grow h.output h.input hs

/-- A connection that is open after a call was open before it. -/
theorem open_before (h : s.Good) {call : ConnCall} (hs : callStep s call = some s')
    (hopen : closed s'.effects = false) : closed s.effects = false := by
  obtain ⟨new, hnew⟩ := h.effects_grow hs
  rw [hnew, closed_append, Bool.or_eq_false_iff] at hopen
  exact hopen.1

end Io.Good

/-- What the constructor of a connection and its owner provide, with a descriptor that the poller
of the loop does not know. -/
structure Opening where
  address : ℕ
  fd : ℕ
  highWaterMark : ℕ
  writeCompleteCallback : Bool
  highWaterMarkCallback : Bool
  poller : EpollPoller
  unknown : poller.channels fd = none ∧ poller.interest fd = none

/-- A connection on a loop that knows no other channel. -/
def Opening.fresh : Opening where
  address := 1
  fd := 5
  highWaterMark := 67108864
  writeCompleteCallback := false
  highWaterMarkCallback := false
  poller := .empty
  unknown := ⟨rfl, rfl⟩

/-- The connection its constructor builds. -/
def Opening.constructed (o : Opening) : Io where
  conn := {
    state := .kConnecting
    channel := ⟨o.address, o.fd, kNoneEvent, .kNew⟩
    inputBuffer := .initial
    outputBuffer := .initial
    highWaterMark := o.highWaterMark
    writeCompleteCallback := o.writeCompleteCallback
    highWaterMarkCallback := o.highWaterMarkCallback }
  poller := o.poller
  effects := []

/-- The connection when `connectEstablished` starts the connection callback. -/
def Opening.established (o : Opening) : Io where
  conn := { o.constructed.conn with
    state := .kConnected
    channel := ⟨o.address, o.fd, kReadEvent, .kAdded⟩ }
  poller := {
    channels := Function.update o.poller.channels o.fd (some o.address)
    interest := Function.update o.poller.interest o.fd (some (kReadEvent, o.address)) }
  effects := [.connectionCallback true]

/-- `connectEstablished` completes on a constructed connection. -/
theorem connectEstablished_constructed (o : Opening) :
    o.constructed.connectEstablished = .ok o.established := by
  have hevents : kNoneEvent ||| kReadEvent = kReadEvent := by decide
  simp [Io.connectEstablished, Io.onChannel, Io.setState, Channel.enableReading,
    EpollPoller.updateChannel, EpollPoller.update, Opening.constructed, Opening.established,
    o.unknown.2, Io.emit, Io.connected, hevents]

/-- The established connection is open and its buffers are empty. -/
theorem Opening.established_good (o : Opening) : o.established.Good :=
  ⟨Buffer.initial_inv, Buffer.initial_inv, by simp [established, closed],
    by simp [established, closed]⟩

end CcMuduo
