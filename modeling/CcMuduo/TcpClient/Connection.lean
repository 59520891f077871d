import CcMuduo.IoLoop
import CcMuduo.TcpConnection.Callbacks

/-!
# The connection of a client

The loop thread with one connection of a `TcpClient`, from its `newConnection` on. The client holds it in
`connection_`, user code in pointers of its own, and the functions and functors of the connection while
they last. User code runs in the callbacks of the connection and in those of the other channels of the
loop, which report to the same poller; it reaches the connection in its callbacks, through a pointer of
its own, or through the client.

The destructor of the client shuts the connection down and lets it go. It stores a close callback that
again calls the client. It also computes whether it has the only reference, and does not use the answer.
The connector is left out: behind the hand-over of the socket it has nothing to do with the connection.

A function that calls an object which is gone is undefined, and ends the run.
-/

namespace CcMuduo

open Foundation

/-- The functors of the connection: the `connectDestroyed` that the client queues, and the callbacks that
writing queues. Each holds the connection. -/
inductive ClientFunctor where
  | connectDestroyed
  | callback
  deriving DecidableEq, Repr

/-- A function on the stack of the loop thread that is in user code. Each holds the connection: the local
`conn` of `newConnection`, the guard of `handleEvent`, `connPtr` in `handleClose`, the functor in the
others. -/
inductive ClientFrame where
  | newConnection
  | handleEvent (revents : Mask)
  | handleClose
  | connectDestroyed
  | callback
  deriving DecidableEq

/-- The loop with the connection and the client. `active` are the events of the connection that wait for
dispatch, `called` the part of the vector of `doPendingFunctors` that has been run, and `pointers` the
number of references that user code keeps. `orphaned` records that the client was destroyed while it had
the connection. -/
structure ClientLoop where
  io : Io
  phase : LoopPhase
  active : Option Mask
  stack : List ClientFrame
  pendingFunctors : List ClientFunctor
  called : List ClientFunctor
  functors : List ClientFunctor
  pointers : ℕ
  alive : Bool
  connection_ : Bool
  orphaned : Bool

/-- What can happen: the client gets the connection, the loop turns, the other channels of the loop use
the poller, user code calls the connection and takes and releases pointers, and the client is
destroyed. -/
inductive ClientLoopLabel where
  | newConnection
  | poll (revents : Option Mask)
  | event (r : ReadResult)
  | resume (w : WriteResult)
  | doPendingFunctors
  | functor
  | loopAgain
  | others (poller : EpollPoller)
  | call (call : ConnCall)
  | take
  | release
  | destroyClient

namespace ClientLoop

variable (s : ClientLoop)

/-- The functors that have not been dropped. -/
def queued : List ClientFunctor := s.called ++ s.functors ++ s.pendingFunctors

/-- How many functions and functors hold the connection. -/
def holders : ℕ := s.stack.length + s.queued.length

/-- Is there a strong reference to the connection? -/
def strong : Bool := s.connection_ || decide (0 < s.pointers) || decide (0 < s.holders)

/-- May user code run, and does it reach the connection? -/
def reaches : Bool :=
  s.phase != .polling && (!s.stack.isEmpty || decide (0 < s.pointers) || s.connection_)

/-- The poller knows nothing of the channel. -/
def unregistered : Prop :=
  s.io.poller.channels s.io.conn.channel.fd = none ∧ s.io.poller.interest s.io.conn.channel.fd = none

instance : Decidable s.unregistered := inferInstanceAs (Decidable (_ = none ∧ _ = none))

/-- The loop behind a function of the connection: what it has queued, and `handleClose` in front of the
close callback if it has come to it. -/
def perform (x : Io) : ClientLoop :=
  let new := x.effects.drop s.io.effects.length
  { s with
    io := x
    stack := List.replicate (closes new) .handleClose ++ s.stack
    pendingFunctors := s.pendingFunctors ++ List.replicate (new.countP Effect.queues) .callback }

/-- Run a function of the connection; a fault ends the run. -/
def exec (f : Io → Except Fault Io) : Option ClientLoop := (f s.io).toOption.map s.perform

/-- `TcpClient::newConnection`, from the event of the connector, up to the connection callback. -/
def newConnection : Option ClientLoop :=
  if s.phase = .dispatching ∧ s.stack = [] ∧ s.alive ∧ s.io.conn.state = .kConnecting then
    ({ s with connection_ := true, stack := [.newConnection] } : ClientLoop).exec Io.connectEstablished
  else none

/-- `TcpClient::removeConnection`, with its assertion. -/
def removeConnection : Option ClientLoop :=
  if s.alive ∧ s.connection_ then
    some { s with
      connection_ := false
      pendingFunctors := s.pendingFunctors ++ [.connectDestroyed] }
  else none

/-- `connectDestroyed` up to its callback, when it has one. -/
def connectDestroyed : Option ClientLoop :=
  if s.io.conn.state = .kConnected then
    ({ s with stack := .connectDestroyed :: s.stack } : ClientLoop).exec Io.notifyDestroyed
  else s.exec (·.onChannel Channel.remove)

/-- `poll`: the channel is reported once at most, with events that are registered, errors or hangups. -/
def poll (revents : Option Mask) : Option ClientLoop :=
  let reports (m : Mask) : Bool :=
    match s.io.poller.interest s.io.conn.channel.fd with
    | some (events, ptr) => ptr == s.io.conn.channel.address && m != 0 &&
        m &&& ~~~(events ||| EPOLLERR ||| EPOLLHUP) == 0
    | none => false
  if s.phase = .polling ∧ s.stack = [] ∧ revents.all reports then
    some { s with phase := .dispatching, active := revents }
  else none

/-- `handleEvent`, up to its first callback. -/
def event (r : ReadResult) : Option ClientLoop :=
  match s.phase, s.stack, s.active with
  | .dispatching, [], some revents =>
    if s.strong ∧ (ConnCall.handleRead r).legal s.io then
      ({ s with active := none, stack := [.handleEvent revents] } : ClientLoop).exec
        (·.handleEventRead revents r)
    else none
  | _, _, _ => none

/-- The callback of the uppermost function returns. -/
def resume (w : WriteResult) : Option ClientLoop :=
  match s.stack with
  | [] => none
  | f :: rest =>
    let s₁ : ClientLoop := { s with stack := rest }
    match f with
    | .newConnection | .callback => some s₁
    | .handleEvent revents =>
      if w.fits s.io.conn.outputBuffer.readableBytes then s₁.exec (·.handleEventWrite revents w) else none
    | .handleClose => s₁.removeConnection
    | .connectDestroyed => s₁.exec (·.onChannel Channel.remove)

/-- `doPendingFunctors` takes the vector. -/
def doPendingFunctors : Option ClientLoop :=
  if s.phase = .dispatching ∧ s.active = none ∧ s.stack = [] then
    some { s with
      phase := .callingPendingFunctors
      functors := s.pendingFunctors
      pendingFunctors := [] }
  else none

/-- `doPendingFunctors` runs the next functor of the vector. -/
def functor : Option ClientLoop :=
  match s.phase, s.stack, s.functors with
  | .callingPendingFunctors, [], f :: rest =>
    let s₁ : ClientLoop := { s with called := s.called ++ [f], functors := rest }
    match f with
    | .connectDestroyed => s₁.connectDestroyed
    | .callback => some { s₁ with stack := [.callback] }
  | _, _, _ => none

/-- `doPendingFunctors` drops the vector, and the loop goes back to its poll. -/
def loopAgain : Option ClientLoop :=
  if s.phase = .callingPendingFunctors ∧ s.functors = [] ∧ s.stack = [] then
    some { s with phase := .polling, called := [] }
  else none

/-- The other channels of the loop leave the records of this one alone. -/
def others (poller : EpollPoller) : Option ClientLoop :=
  if poller.channels s.io.conn.channel.fd = s.io.poller.channels s.io.conn.channel.fd ∧
      poller.interest s.io.conn.channel.fd = s.io.poller.interest s.io.conn.channel.fd then
    some { s with io := { s.io with poller := poller } }
  else none

/-- `~TcpClient` in user code. Without a connection it only stops its connector. -/
def destroyClient : Option ClientLoop :=
  if s.alive ∧ s.phase ≠ .polling then
    if s.connection_ then
      some { s.perform s.io.shutdown with
        alive := false
        connection_ := false
        orphaned := true }
    else some { s with alive := false }
  else none

/-- One step. `disconnect` and `connection` of the client are a call of `shutdown` and a pointer
taken. -/
def step (s : ClientLoop) : ClientLoopLabel → Option ClientLoop
  | .newConnection => s.newConnection
  | .poll revents => s.poll revents
  | .event r => s.event r
  | .resume w => s.resume w
  | .doPendingFunctors => s.doPendingFunctors
  | .functor => s.functor
  | .loopAgain => s.loopAgain
  | .others poller => s.others poller
  | .call call => if s.reaches ∧ call.byUser then (callStep s.io call).map s.perform else none
  | .take => if s.reaches then some { s with pointers := s.pointers + 1 } else none
  | .release =>
    if s.phase ≠ .polling ∧ 0 < s.pointers then some { s with pointers := s.pointers - 1 } else none
  | .destroyClient => s.destroyClient

end ClientLoop

/-- The connector of a client has connected a socket. -/
def Opening.handedOver (o : Opening) : ClientLoop where
  io := o.constructed
  phase := .dispatching
  active := none
  stack := []
  pendingFunctors := []
  called := []
  functors := []
  pointers := 0
  alive := true
  connection_ := false
  orphaned := false

end CcMuduo
