import CcMuduo.EpollPoller
import CcMuduo.EventLoop
import CcMuduo.Foundation.Exec
import CcMuduo.Foundation.Run

/-!
# The connector

`Connector` on its loop, between the calls of any thread and the answers of the kernel. `start` and
`stop` store `connect_` and then run or queue a functor, as two steps, for any number of threads at a
time; `restart`, the events of the channel, the retry timers and the queued functors are steps of the
loop thread.

The connector logs what it does with descriptors, the latest action first. A failed assertion, a null
channel and `LOG_FATAL` end the process, and the state they leave is kept.
-/

namespace CcMuduo

open Foundation

/-- `Connector::States`. -/
inductive ConnectorState where
  | kDisconnected
  | kConnecting
  | kConnected
  deriving DecidableEq, Repr

/-- What ends the process: `removeAndResetChannel` on a null `channel_`, the assertion of `connecting`,
the assertion of `startInLoop`, and `LOG_FATAL`. -/
inductive ConnectorFault where
  | noChannel
  | channelSet
  | notDisconnected
  | fatal
  deriving DecidableEq, Repr

/-- What the connector does with descriptors. `attempt` is a call of `connect()`. -/
inductive SocketAction where
  | attempt
  | socket (fd : ℕ)
  | epollCtl (operation : CtlOp) (fd : ℕ)
  | close (fd : ℕ)
  | handOver (fd : ℕ)
  deriving DecidableEq, Repr

/-- The functors of the connector. `insertTimer` is the insertion that `runAfter` queues. -/
inductive ConnectorFunctor where
  | startInLoop
  | stopInLoop
  | resetChannel
  | insertTimer (delayMs : ℕ)
  deriving DecidableEq, Repr

/-- Is the functor the insertion of a retry timer? -/
def ConnectorFunctor.insertsTimer : ConnectorFunctor → Bool
  | .insertTimer _ => true
  | .startInLoop | .stopInLoop | .resetChannel => false

/-- What the kernel and the allocator answer in one step. `socket` is the new descriptor, if there is
one, and `address` that of a new channel; `connect` and `soError` are zero for no error; `reused` says
that a number which the connector has given away is open again elsewhere. -/
structure SystemAnswers where
  socket : Option ℕ
  address : ℕ
  connect : Errno
  soError : Errno
  selfConnect : Bool
  reused : Bool

namespace SystemAnswers

/-- Nothing is asked. -/
def silent : SystemAnswers := ⟨none, 0, 0, 0, false, false⟩

/-- A new socket, and what `::connect` answers for it. -/
def connects (fd : ℕ) (errno : Errno) : SystemAnswers :=
  { silent with socket := some fd, connect := errno }

end SystemAnswers

/-- The errors of `::connect` behind which the connection is in progress. -/
def connectingErrnos : List Errno := [0, EINPROGRESS, EINTR, EISCONN]

/-- The errors of `::connect` behind which the connector tries again. -/
def retryErrnos : List Errno := [EAGAIN, EADDRINUSE, EADDRNOTAVAIL, ECONNREFUSED, ENETUNREACH]

/-- `kInitRetryDelayMs`. -/
def kInitRetryDelayMs : ℕ := 500

/-- `kMaxRetryDelayMs`. -/
def kMaxRetryDelayMs : ℕ := 30 * 1000

/-- A connector on its loop. `timers` are the delays of the pending retry timers, `active` the events
that the last poll found on the channel and that were not handled yet. `starts` counts the calls of
`start` and `restart`; a queued functor carries the count of its time, for the statements only.
`starting` and `stopping` are the calls of `start` and `stop` behind their stores, those of `stop` with
the count. -/
structure ConnectorLoop where
  connect_ : Bool
  state : ConnectorState
  channel : Option Channel
  retryDelayMs : ℕ
  loop : EventLoop ℕ ConnectorFunctor
  poller : EpollPoller
  timers : List ℕ
  active : Option Mask
  starts : ℕ
  starting : ℕ
  stopping : List ℕ
  log : List SocketAction
  fault : Option ConnectorFault

/-- The sockets the connector has created and neither closed nor handed over. -/
def held : List SocketAction → List ℕ
  | [] => []
  | .socket fd :: past => fd :: held past
  | .close fd :: past | .handOver fd :: past => (held past).erase fd
  | .attempt :: past | .epollCtl _ _ :: past => held past

/-- A computation of the connector. -/
abbrev ConnectorM := Exec ConnectorLoop ConnectorFault

namespace ConnectorLoop

/-- The connector and its loop behind their constructors. -/
def constructed : ConnectorLoop :=
  ⟨false, .kDisconnected, none, kInitRetryDelayMs, .constructed, .empty, [], none, 0, 0, [], [], none⟩

/-- Log an action. -/
def record (action : SocketAction) : ConnectorM PUnit :=
  modify fun s => { s with log := action :: s.log }

/-- `sockets::close`. No socket is registered with the poller at that time. -/
def close (fd : ℕ) : ConnectorM PUnit := record (.close fd)

/-- `queueInLoop`, without the wakeup: `poll` may return at any time. -/
def queueInLoop (cb : ConnectorFunctor) : ConnectorM PUnit :=
  modify fun s => { s with loop := s.loop.enqueue s.starts cb }

/-- One `epoll_ctl`. On a closed number that nobody has opened again the kernel answers `EBADF`, which is
only logged for a deletion. -/
def epollCtl (a : SystemAnswers) (operation : CtlOp) (fd : ℕ) : ConnectorM PUnit := do
  record (.epollCtl operation fd)
  let s ← get
  if fd ∉ held s.log ∧ a.reused = false ∧ operation ≠ .del then throw .fatal

/-- A call of the poller for the channel, with the `epoll_ctl` it makes, if any. -/
def onPoller (a : SystemAnswers) (operation : Option CtlOp) (c : Channel)
    (call : EpollPoller → Except Fault (EpollPoller × Channel)) : ConnectorM Channel := do
  match operation with
  | some operation => epollCtl a operation c.fd
  | none => pure ⟨⟩
  let s ← get
  match call s.poller with
  | .ok (poller, c') =>
    set { s with poller := poller, channel := some c' }
    return c'
  | .error _ => throw .fatal

/-- `removeAndResetChannel`. -/
def removeAndResetChannel (a : SystemAnswers) : ConnectorM ℕ := do
  let s ← get
  match s.channel with
  | none => throw .noChannel
  | some c =>
    let c₁ ← onPoller a (some { c with events := kNoneEvent }.updateOperation) c c.disableAll
    let c₂ ← onPoller a c₁.removeOperation c₁ c₁.remove
    queueInLoop .resetChannel
    return c₂.fd

/-- `resetChannel`. -/
def resetChannel : ConnectorM PUnit := modify fun s => { s with channel := none }

/-- `connecting`. -/
def connecting (a : SystemAnswers) (sockfd : ℕ) : ConnectorM PUnit := do
  modify fun s => { s with state := .kConnecting }
  let s ← get
  if s.channel.isSome then throw .channelSet
  let c : Channel := ⟨a.address, sockfd, kNoneEvent, .kNew⟩
  let _ ← onPoller a (some { c with events := c.events ||| kWriteEvent }.updateOperation) c
    c.enableWriting

/-- `retry`. The timer goes through the functor queue of the loop. -/
def retry (a : SystemAnswers) (delayMs : ℕ) : ConnectorM PUnit := do
  let sockfd ← removeAndResetChannel a
  close sockfd
  modify fun s => { s with retryDelayMs := min (s.retryDelayMs * 2) kMaxRetryDelayMs }
  queueInLoop (.insertTimer delayMs)

/-- `connect`. The retry branch passes the descriptor for the delay. The errors that `connect` names
besides those and all others close the socket. -/
def connect (a : SystemAnswers) : ConnectorM PUnit := do
  record .attempt
  match a.socket with
  | none => throw .fatal
  | some sockfd =>
    record (.socket sockfd)
    if a.connect ∈ connectingErrnos then connecting a sockfd
    else if a.connect ∈ retryErrnos then retry a sockfd
    else close sockfd

/-- `startInLoop`. -/
def startInLoop (a : SystemAnswers) : ConnectorM PUnit := do
  let s ← get
  if s.state ≠ .kDisconnected then throw .notDisconnected
  if s.connect_ then connect a

/-- `stopInLoop`. -/
def stopInLoop (a : SystemAnswers) : ConnectorM PUnit := do
  let s ← get
  if s.state = .kConnecting then
    modify fun s => { s with state := .kDisconnected }
    let sockfd ← removeAndResetChannel a
    close sockfd
    retry a s.retryDelayMs

/-- `restart`. -/
def restart (a : SystemAnswers) : ConnectorM PUnit := do
  modify fun s => { s with
    state := .kDisconnected
    retryDelayMs := kInitRetryDelayMs
    connect_ := true
    starts := s.starts + 1 }
  startInLoop a

/-- `handleWrite`. -/
def handleWrite (a : SystemAnswers) : ConnectorM PUnit := do
  let s ← get
  if s.state = .kConnecting then
    let sockfd ← removeAndResetChannel a
    if a.soError ≠ 0 ∨ a.selfConnect = true then
      close sockfd
      retry a s.retryDelayMs
    else
      modify fun s => { s with state := .kConnected }
      if s.connect_ then record (.handOver sockfd)
      else
        close sockfd
        retry a s.retryDelayMs

/-- `handleError`. Nothing depends on the error it reads; the descriptor is passed for the delay. -/
def handleError (a : SystemAnswers) : ConnectorM PUnit := do
  let s ← get
  if s.state = .kConnecting then
    let sockfd ← removeAndResetChannel a
    retry a sockfd

/-- `Channel::handleEventWithGuard` with the callbacks of the connector: there is none for closing and
none for reading. -/
def handleEventWithGuard (a : SystemAnswers) (revents : Mask) : ConnectorM PUnit := do
  if hasAny revents EPOLLERR then handleError a
  else if hasAny revents (EPOLLHUP ||| EPOLLRDHUP) then pure ⟨⟩
  else
    if hasAny revents (EPOLLIN ||| EPOLLPRI) then throw .fatal
    if hasAny revents EPOLLOUT then handleWrite a

/-- Run a queued functor. -/
def execute (a : SystemAnswers) : ConnectorFunctor → ConnectorM PUnit
  | .startInLoop => startInLoop a
  | .stopInLoop => stopInLoop a
  | .resetChannel => resetChannel
  | .insertTimer delayMs => modify fun s => { s with timers := delayMs :: s.timers }

/-- The state behind a computation. A failure ends the process. -/
def after (s : ConnectorLoop) (x : ConnectorM PUnit) : ConnectorLoop :=
  match exec x s with
  | (.ok _, s') => s'
  | (.error fault, s') => { s' with fault := some fault }

/-- A number that the kernel gives to a new socket is not open. -/
def admits (s : ConnectorLoop) (a : SystemAnswers) : Prop :=
  ∀ fd ∈ a.socket, fd ∉ held s.log ∧ s.poller.interest fd = none

instance (s : ConnectorLoop) (a : SystemAnswers) : Decidable (s.admits a) :=
  inferInstanceAs (Decidable (∀ fd ∈ a.socket, fd ∉ held s.log ∧ s.poller.interest fd = none))

/-- May the poll find these events on the channel, or none? The kernel reports what is registered,
errors and hangups. -/
def reports (s : ConnectorLoop) : Option Mask → Prop
  | none => True
  | some revents => ∃ c ∈ s.channel, ∃ entry ∈ s.poller.interest c.fd,
    entry.2 = c.address ∧ revents &&& ~~~(entry.1 ||| EPOLLERR ||| EPOLLHUP) = 0

instance (s : ConnectorLoop) : DecidablePred s.reports
  | none => inferInstanceAs (Decidable True)
  | some revents => inferInstanceAs (Decidable (∃ c ∈ s.channel, ∃ entry ∈ s.poller.interest c.fd,
    entry.2 = c.address ∧ revents &&& ~~~(entry.1 ||| EPOLLERR ||| EPOLLHUP) = 0))

end ConnectorLoop

/-- A step of the connector. `startStore` and `stopStore` are the stores of `start` and `stop`, by any
thread; `startRun` is the `runInLoop` of `start`, with the answer of `isInLoopThread()`, and `stopQueue`
the `queueInLoop` of `stop`. `move` is a step of the loop thread except `poll`, `handleEvent` the event
of the channel, and `fire` a retry timer. -/
inductive ConnectorLabel where
  | startStore
  | startRun (isInLoopThread : Bool) (a : SystemAnswers)
  | stopStore
  | stopQueue
  | restart (a : SystemAnswers)
  | move (m : EventLoop.Move) (a : SystemAnswers)
  | poll (revents : Option Mask)
  | handleEvent (a : SystemAnswers)
  | fire (delayMs : ℕ) (a : SystemAnswers)
  | quit

/-- What the kernel answers in a step, if it is asked. -/
def ConnectorLabel.answers? : ConnectorLabel → Option SystemAnswers
  | .startRun _ a | .restart a | .move _ a | .handleEvent a | .fire _ a => some a
  | .startStore | .stopStore | .stopQueue | .poll _ | .quit => none

namespace ConnectorLoop

/-- One step with possible answers, of a process that has not ended. -/
def stepWith (s : ConnectorLoop) : ConnectorLabel → Option ConnectorLoop
  | .startStore =>
    some { s with connect_ := true, starts := s.starts + 1, starting := s.starting + 1 }
  | .startRun isInLoopThread a =>
    if 0 < s.starting then
      let s₁ := { s with starting := s.starting - 1 }
      some (s₁.after (if isInLoopThread then startInLoop a else queueInLoop .startInLoop))
    else none
  | .stopStore => some { s with connect_ := false, stopping := s.stopping ++ [s.starts] }
  | .stopQueue =>
    match s.stopping with
    | [] => none
    | count :: rest => some { s with stopping := rest, loop := s.loop.enqueue count .stopInLoop }
  | .restart a => if s.loop.inUserCode then some (s.after (restart a)) else none
  | .move m a =>
    if m = .poll ∨ (m = .handled ∧ s.active ≠ none) then none
    else (s.loop.next m).map fun loop =>
      let s₁ := { s with loop := loop }
      if m = .call then
        match s.loop.nextFunctor with
        | some (_, functor) => s₁.after (execute a functor)
        | none => s₁
      else s₁
  | .poll revents =>
    if s.reports revents then
      (s.loop.next .poll).map fun loop => { s with loop := loop, active := revents }
    else none
  | .handleEvent a =>
    match s.loop.pc, s.active with
    | .handling _, some revents =>
      let s₁ := { s with active := none }
      some (s₁.after (handleEventWithGuard a revents))
    | _, _ => none
  | .fire delayMs a =>
    match s.loop.pc with
    | .handling _ =>
      if delayMs ∈ s.timers then
        let s₁ := { s with timers := s.timers.erase delayMs }
        some (s₁.after (connect a))
      else none
    | _ => none
  | .quit => some { s with loop := s.loop.setQuit }

/-- One step. -/
def step (s : ConnectorLoop) (label : ConnectorLabel) : Option ConnectorLoop :=
  if s.fault = none ∧ ∀ a ∈ label.answers?, s.admits a then s.stepWith label else none

/-- The functors that wait for the loop thread. -/
def functors (s : ConnectorLoop) : List ConnectorFunctor := s.loop.waiting.map Prod.snd

/-- The functor that the next call of the loop thread runs. -/
def nextFunctor (s : ConnectorLoop) : Option ConnectorFunctor := s.loop.nextFunctor.map Prod.snd

/-- How many retries are outstanding: the pending timers, and those that wait to be inserted. -/
def retries (s : ConnectorLoop) : ℕ :=
  s.timers.length + s.functors.countP ConnectorFunctor.insertsTimer

end ConnectorLoop

end CcMuduo
