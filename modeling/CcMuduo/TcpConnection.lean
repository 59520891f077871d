import CcMuduo.Buffer
import CcMuduo.EpollPoller

/-!
# One connection on its loop thread

The functions of `TcpConnection` that run on the loop thread, with the branch of `Channel` that
dispatches to them. Each takes the answers of the system calls it makes as arguments.

What a function does outside the connection is recorded in order in `effects`: bytes the kernel
took, callbacks it starts, callbacks it queues. A user callback is the last thing a handler does
to the connection, so what the callback calls back is a later call; the two places where code
follows a callback, the write part of an event and `remove` in `connectDestroyed`, are separate
functions here.

`sendInLoop` calls `snprintf` with a string literal for its buffer. The process dies at the store, so
that what `directWrite` and `sendInLoop` say behind it is what the text would do if the store did no
harm. The call is recorded as an effect, and a state that `survives` has no such call behind it.
-/

namespace CcMuduo

open Foundation

/-- The connection states. -/
inductive StateE where
  | kDisconnected
  | kConnecting
  | kConnected
  | kDisconnecting
  deriving DecidableEq, Repr

/-- The fields of a connection its handlers read; a callback field says whether it is set. -/
structure TcpConnection where
  state : StateE
  channel : Channel
  inputBuffer : Buffer
  outputBuffer : Buffer
  highWaterMark : ℕ
  writeCompleteCallback : Bool
  highWaterMarkCallback : Bool
  deriving DecidableEq, Repr

/-- What a connection does to the world around it. `shutdownWrite` carries how many bytes of
`outputBuffer` were unsent at that moment, and `messageCallback` the readable bytes of
`inputBuffer` with the number of them that the read in front of the callback added. -/
inductive Effect where
  | write (bytes : List UInt8)
  | formatLiteral (size : ℕ)
  | queueWriteComplete
  | queueHighWaterMark (len : ℕ)
  | shutdownWrite (unsent : ℕ)
  | connectionCallback (connected : Bool)
  | messageCallback (buffered : List UInt8) (received : ℕ)
  | closeCallback
  deriving DecidableEq, Repr

/-- A message in memory: its bytes and the byte in front of them. -/
structure Message where
  before : UInt8
  bytes : List UInt8
  fits : bytes.length ≤ maxSize

/-- The `count` bytes of memory from `offset` bytes behind the start of the message on; offset `-1`
is the byte in front of it. -/
def Message.window (msg : Message) (offset : ℤ) (count : ℕ) : List UInt8 :=
  ((msg.before :: msg.bytes).drop (offset + 1).toNat).take count

/-- What the calls between a failed `::write` and the tests of `errno` leave in `errno`: the logging
call in front of the first test, and the formatting call in front of the second. -/
structure ErrnoTrail where
  afterLog : Errno → Errno
  afterFormat : Errno → Errno

/-- A connection with the poller of its loop and what it has done so far. -/
structure Io where
  conn : TcpConnection
  poller : EpollPoller
  effects : List Effect

namespace Io

variable (s : Io)

/-- Record an effect. -/
def emit (e : Effect) : Io := { s with effects := s.effects ++ [e] }

/-- `setState`. -/
def setState (state : StateE) : Io := { s with conn := { s.conn with state := state } }

/-- `connected()`. -/
def connected : Bool := s.conn.state == .kConnected

/-- Call a member of `channel_` that reports to the poller. -/
def onChannel (op : Channel → EpollPoller → Except Fault (EpollPoller × Channel)) :
    Except Fault Io := do
  let (p, c) ← op s.conn.channel s.poller
  return { s with poller := p, conn := { s.conn with channel := c } }

/-- `handleClose`: no test of the state comes first. -/
def handleClose : Except Fault Io := do
  let s₁ ← (s.setState .kDisconnected).onChannel Channel.disableAll
  return (s₁.emit (.connectionCallback s₁.connected)).emit .closeCallback

/-- `handleError` only reads `SO_ERROR` and logs it. -/
def handleError : Io := s

/-- `shutdownInLoop`: the write side is closed unless the write interest is on. -/
def shutdownInLoop : Io :=
  if !s.conn.channel.isWriting then s.emit (.shutdownWrite s.conn.outputBuffer.readableBytes) else s

/-- `shutdown` called on the loop thread. -/
def shutdown : Io :=
  if s.conn.state = .kConnected then (s.setState .kDisconnecting).shutdownInLoop else s

/-- The outcome of the direct write: the connection, `nwroter`, `remaining`, `faultError`. -/
abbrev DirectWrite := Io × ℤ × ℕ × Bool

/-- The `::write` that `sendInLoop` tries first, with the tests of its result. A failed call leaves
`nwroter` at `-1`. The text is followed past the store into the literal, which ends the process. -/
def directWrite (msg : Message) (log : ErrnoTrail) : WriteResult → DirectWrite
  | .accepted n =>
    let remaining := sizeSub msg.bytes.length n
    let s₁ := s.emit (.write (msg.bytes.take n))
    let s₂ := if remaining = 0 ∧ s.conn.writeCompleteCallback then s₁.emit .queueWriteComplete else s₁
    (s₂, n, remaining, false)
  | .failed errno =>
    let errno₁ := log.afterLog errno
    if errno₁ ≠ EWOULDBLOCK then
      let errno₂ := log.afterFormat errno₁
      (s.emit (.formatLiteral errno₁), -1, msg.bytes.length,
        errno₂ == EPIPE || errno₂ == ECONNRESET)
    else (s, -1, msg.bytes.length, false)

/-- The tail of `sendInLoop`: keep the bytes from `data + nwroter` on for later. -/
def queueRest (msg : Message) (nwroter : ℤ) (remaining : ℕ) : Except Fault Io := do
  let oldLen := s.conn.outputBuffer.readableBytes
  let newLen := sizeAdd oldLen remaining
  let s₁ :=
    if s.conn.highWaterMark ≤ newLen ∧ oldLen < s.conn.highWaterMark ∧
        s.conn.highWaterMarkCallback then
      s.emit (.queueHighWaterMark newLen)
    else s
  let out ← s.conn.outputBuffer.append (msg.window nwroter remaining)
  let s₂ : Io := { s₁ with conn := { s₁.conn with outputBuffer := out } }
  if !s₂.conn.channel.isWriting then s₂.onChannel Channel.enableWriting else return s₂

/-- Nothing waits to be written, so `sendInLoop` may write at once. -/
def writesDirectly : Bool :=
  !s.conn.channel.isWriting && s.conn.outputBuffer.readableBytes == 0

/-- The first half of `sendInLoop`: the direct write, when nothing is waiting. -/
def firstWrite (msg : Message) (w : WriteResult) (log : ErrnoTrail) : DirectWrite :=
  if s.writesDirectly then s.directWrite msg log w else (s, 0, msg.bytes.length, false)

/-- `sendInLoop`. -/
def sendInLoop (msg : Message) (w : WriteResult) (log : ErrnoTrail) : Except Fault Io :=
  if s.conn.state = .kDisconnected then .ok s
  else
    let (s₁, nwroter, remaining, faultError) := s.firstWrite msg w log
    if faultError then s₁.handleClose
    else if 0 < remaining then s₁.queueRest msg nwroter remaining
    else .ok s₁

/-- The process is alive: nothing has been stored into the literal. The size of the store is `errno`
behind a failed call, which no library function sets to zero, so that every such call stores. -/
def survives : Bool := !s.effects.any fun
  | .formatLiteral _ => true
  | _ => false

/-- `send` called on the loop thread. -/
def send (msg : Message) (w : WriteResult) (log : ErrnoTrail) : Except Fault Io :=
  if s.conn.state = .kConnected then s.sendInLoop msg w log else .ok s

/-- `handleRead`. -/
def handleRead (r : ReadResult) : Except Fault Io := do
  let (input, n, _) ← s.conn.inputBuffer.readFd 0 r
  let s₁ : Io := { s with conn := { s.conn with inputBuffer := input } }
  if 0 < n then return s₁.emit (.messageCallback input.content n.toNat)
  else if n = 0 then s₁.handleClose
  else return s₁.handleError

/-- `handleWrite` when the buffer is empty: it drops the read interest. -/
def drained : Except Fault Io := do
  let s₁ ← s.onChannel Channel.disableReading
  let s₂ := if s₁.conn.writeCompleteCallback then s₁.emit .queueWriteComplete else s₁
  if s₂.conn.state = .kDisconnecting then return s₂.shutdownInLoop else return s₂

/-- `handleWrite` when the kernel has taken the first `n` bytes, `taken`, of the buffer. -/
def consume (n : ℕ) (taken : List UInt8) : Except Fault Io :=
  let s₁ := s.emit (.write taken)
  let out := s₁.conn.outputBuffer.retrieve n
  let s₂ : Io := { s₁ with conn := { s₁.conn with outputBuffer := out } }
  if out.readableBytes = 0 then s₂.drained else .ok s₂

/-- `handleWrite`. -/
def handleWrite (w : WriteResult) : Except Fault Io :=
  if s.conn.channel.isWriting then
    let (n, _, taken) := s.conn.outputBuffer.writeFd 0 w
    if 0 < n then s.consume n.toNat taken else .ok s
  else .ok s

/-- `connectEstablished`. -/
def connectEstablished : Except Fault Io := do
  let s₁ ← (s.setState .kConnected).onChannel Channel.enableReading
  return s₁.emit (.connectionCallback s₁.connected)

/-- `connectDestroyed` up to and including its callback. -/
def notifyDestroyed : Except Fault Io :=
  if s.conn.state = .kConnected then do
    let s₁ ← (s.setState .kDisconnected).onChannel Channel.disableAll
    return s₁.emit (.connectionCallback s₁.connected)
  else .ok s

/-- `connectDestroyed`. -/
def connectDestroyed : Except Fault Io := do
  let s₁ ← s.notifyDestroyed
  s₁.onChannel Channel.remove

/-- `Channel::handleEventWithGuard` up to and including the read callback: an error or a hang-up ends
the dispatch before the read event is looked at. -/
def handleEventRead (revents : Mask) (r : ReadResult) : Except Fault Io :=
  if hasAny revents EPOLLERR then .ok s.handleError
  else if hasAny revents (EPOLLHUP ||| EPOLLRDHUP) then s.handleClose
  else if hasAny revents (EPOLLIN ||| EPOLLPRI) then s.handleRead r
  else .ok s

/-- The rest of `Channel::handleEventWithGuard`. -/
def handleEventWrite (revents : Mask) (w : WriteResult) : Except Fault Io :=
  if hasAny revents (EPOLLERR ||| EPOLLHUP ||| EPOLLRDHUP) then .ok s
  else if hasAny revents EPOLLOUT then s.handleWrite w
  else .ok s

/-- `Channel::handleEventWithGuard` on a connection's channel. -/
def handleEventWithGuard (revents : Mask) (r : ReadResult) (w : WriteResult) : Except Fault Io := do
  let s₁ ← s.handleEventRead revents r
  s₁.handleEventWrite revents w

end Io

end CcMuduo
