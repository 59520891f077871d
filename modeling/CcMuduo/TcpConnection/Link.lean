import CcMuduo.TcpConnection.Calls

/-!
# A connection and its socket

A connection together with the receiving side of its socket: what the peer has sent, what of it
the kernel still holds, and the event of the connection that waits in `activeChannels`. The kernel
reports `EPOLLIN` while bytes or the end of the stream are unread, and `EPOLLHUP` as soon as both
directions are shut down, whether or not bytes are unread.

Resets are left out: no poll reports `EPOLLERR`, and no direct write of a send fails with `EPIPE` or
`ECONNRESET`. A connection that is reset is closed in any state, whatever interest it has.
-/

namespace CcMuduo

open Foundation

/-- The bytes given to the message callback: of the readable bytes it is shown, the ones the read in
front of it added. -/
def delivered (effects : List Effect) : List UInt8 :=
  effects.flatMap fun
    | .messageCallback buffered received => buffered.drop (buffered.length - received)
    | _ => []

@[simp] theorem delivered_append (l₁ l₂ : List Effect) :
    delivered (l₁ ++ l₂) = delivered l₁ ++ delivered l₂ := by
  simp [delivered]

/-- Sending delivers nothing. -/
theorem delivered_of_isSend {l : List Effect} (h : ∀ e ∈ l, e.isSend = true) : delivered l = [] := by
  rw [delivered, List.flatMap_eq_nil_iff]
  intro e he
  have := h e he
  cases e <;> simp_all [Effect.isSend]

/-- A callback behind a read delivers what was read. -/
theorem delivered_read (old bytes : List UInt8) :
    delivered [.messageCallback (old ++ bytes) bytes.length] = bytes := by
  simp [delivered]

/-- The own direction of the socket has been shut down. -/
def shut (effects : List Effect) : Bool :=
  effects.any fun
    | .shutdownWrite _ => true
    | _ => false

/-- Where the event of the connection is: nowhere, waiting in `activeChannels`, or behind its read
callback. -/
inductive EventPhase where
  | idle
  | reported (revents : Mask)
  | reading (revents : Mask)
  deriving DecidableEq, Repr

/-- A connection with the receiving side of its socket. -/
structure Link where
  io : Io
  sent : List UInt8
  unread : List UInt8
  fin : Bool
  phase : EventPhase

/-- What can happen to a link: bytes or the end of the stream arrive, the loop polls, the two halves
of the dispatch run, or other code of the loop thread calls the connection. -/
inductive LinkLabel where
  | peerSend (bytes : List UInt8)
  | peerFin
  | poll (writable : Bool)
  | eventRead (r : ReadResult)
  | eventWrite (w : WriteResult)
  | call (c : ConnCall)

/-- The calls that come from outside the dispatch, with writes that do not fail for good. -/
def ConnCall.isUser : ConnCall → Bool
  | .send _ w log | .sendInLoop _ w log => !w.closes log
  | .shutdown | .retrieve _ => true
  | .handleRead _ | .handleWrite _ => false

/-- The mask of an event in which nothing has failed. -/
def pollMask (readable hangup writable : Bool) : Mask :=
  (if readable then EPOLLIN else 0) ||| (if hangup then EPOLLHUP else 0) |||
    (if writable then EPOLLOUT else 0)

/-- The bits of such a mask. -/
theorem pollMask_bits (readable hangup writable : Bool) :
    hasAny (pollMask readable hangup writable) EPOLLERR = false ∧
      hasAny (pollMask readable hangup writable) (EPOLLHUP ||| EPOLLRDHUP) = hangup ∧
      hasAny (pollMask readable hangup writable) EPOLLHUP = hangup := by
  revert readable hangup writable
  decide

/-- How many bytes an answer of `::readv` carries. -/
def ReadResult.count : ReadResult → ℕ
  | .received bytes => bytes.length
  | .failed _ => 0

namespace Link

variable (s : Link)

/-- What `epoll_wait` reports for the connection, when it is registered. -/
def report (writable : Bool) : Option Mask :=
  (s.io.poller.interest s.io.conn.channel.fd).bind fun (events, _) =>
    let mask := pollMask (hasAny events EPOLLIN && (!s.unread.isEmpty || s.fin))
      (s.fin && shut s.io.effects) (hasAny events EPOLLOUT && writable)
    if mask = 0 then none else some mask

/-- What `::readv` may answer: a non-empty part of the unread bytes that fits, the end of the stream
behind the last byte, or an error. -/
def answers : ReadResult → Bool
  | .received bytes => bytes.isPrefixOf s.unread && decide (bytes.length ≤ s.io.conn.inputBuffer.readOffer)
      && (!bytes.isEmpty || (s.unread.isEmpty && s.fin))
  | .failed _ => true

/-- How many bytes the dispatch of an event takes from the kernel. -/
def readCount (revents : Mask) (r : ReadResult) : ℕ :=
  if !hasAny revents EPOLLERR && !hasAny revents (EPOLLHUP ||| EPOLLRDHUP) &&
      hasAny revents (EPOLLIN ||| EPOLLPRI) then r.count
  else 0

/-- One step of a link. -/
def step (s : Link) : LinkLabel → Option Link
  | .peerSend bytes =>
    if s.fin then none else some { s with sent := s.sent ++ bytes, unread := s.unread ++ bytes }
  | .peerFin => if s.fin then none else some { s with fin := true }
  | .poll writable =>
    match s.phase with
    | .idle => (s.report writable).map fun revents => { s with phase := .reported revents }
    | .reported _ | .reading _ => none
  | .eventRead r =>
    match s.phase with
    | .reported revents =>
      if s.answers r then
        (s.io.handleEventRead revents r).toOption.map fun io =>
          { s with io := io, unread := s.unread.drop (readCount revents r), phase := .reading revents }
      else none
    | .idle | .reading _ => none
  | .eventWrite w =>
    match s.phase with
    | .reading revents =>
      if w.fits s.io.conn.outputBuffer.readableBytes then
        (s.io.handleEventWrite revents w).toOption.map fun io => { s with io := io, phase := .idle }
      else none
    | .idle | .reported _ => none
  | .call c => if c.isUser then (callStep s.io c).map fun io => { s with io := io } else none

end Link

/-- The link when `connectEstablished` starts the connection callback. -/
def Link.opened (o : Opening) : Link where
  io := o.established
  sent := []
  unread := []
  fin := false
  phase := .idle

end CcMuduo
