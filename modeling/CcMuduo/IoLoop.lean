import CcMuduo.Foundation.Run
import CcMuduo.TcpConnection.Handlers

/-!
# The connections of one I/O loop

`EventLoop::loop` with the connections it serves: a poll fills `activeChannels`, the events are
dispatched in order, then `doPendingFunctors` runs what was queued until it took the vector. Every
callback hands the loop thread to user code, which may call any connection of the loop before the
handler goes on, so the handlers that still have code behind a callback wait on a stack. User code
stands for the callbacks of the connections, of timers and of the acceptor alike.

Other threads run `send` and `shutdown` up to the functor they queue, in steps that interleave with the
loop thread. The server takes a connection out of its map behind the close callback, and its destructor
sends `connectDestroyed` to the connections that are still there.

The objects are taken to outlive their last use, and a descriptor stands for one socket. Once the
server is destroyed its `removeConnection` is not run any more. A failed write other than `EWOULDBLOCK`
kills the process at the `snprintf` of `sendInLoop`, so a run ends there.
-/

namespace CcMuduo

open Foundation

/-- A functor that a connection or its server queues on the loop. -/
inductive ConnFunctor (C : Type*) where
  | sendInLoop (c : C) (msg : Message)
  | shutdownInLoop (c : C)
  | connectDestroyed (c : C)

/-- A function of the loop thread with code behind the user callback it is in: the write part of an
event, and `remove` in `connectDestroyed`. -/
inductive Frame (C : Type*) where
  | handleEvent (c : C) (revents : Mask)
  | connectDestroyed (c : C)

/-- Where `EventLoop::loop` is in an iteration. -/
inductive LoopPhase where
  | polling
  | dispatching
  | callingPendingFunctors
  deriving DecidableEq, Repr

/-- What `connectDestroyed` leaves when it returns: the state, whether the poller's map and the kernel
set still know the channel, and how often the user was told up and down. -/
structure Destroyed where
  state : StateE
  mapped : Bool
  registered : Bool
  ups : ℕ
  downs : ℕ
  deriving DecidableEq, Repr

/-- The end state of every connection: down, forgotten by the poller, up and down told once each. -/
def Destroyed.clean : Destroyed where
  state := .kDisconnected
  mapped := false
  registered := false
  ups := 1
  downs := 1

/-- Does the effect hand bytes to the kernel? -/
def Effect.isWrite : Effect → Bool
  | .write _ => true
  | _ => false

/-- Between the two states the connection has written to its socket or changed its registration. -/
def Io.touches (s s' : Io) : Bool :=
  s'.effects.countP Effect.isWrite != s.effects.countP Effect.isWrite ||
    s'.poller.channels s.conn.channel.fd != s.poller.channels s.conn.channel.fd ||
    s'.poller.interest s.conn.channel.fd != s.poller.interest s.conn.channel.fd

/-- What `connectDestroyed` leaves in a state. -/
def Io.destroyed (s : Io) : Destroyed where
  state := s.conn.state
  mapped := (s.poller.channels s.conn.channel.fd).isSome
  registered := (s.poller.interest s.conn.channel.fd).isSome
  ups := ups s.effects
  downs := downs s.effects

/-- A loop with its connections. `pendingFunctors` is the loop's queue and `functors` the vector that
`doPendingFunctors` works through. `storing` holds the connections on which another thread is between
the test and the store of `shutdown`, and `posting` the functors other threads are about to queue.
`removals` counts the runs of `removeConnectionInLoop`, `destroyed` records what every return of
`connectDestroyed` left, and `late` that a functor behind it touched the socket or the poller. -/
structure IoLoop (C : Type*) where
  conns : C → TcpConnection
  poller : EpollPoller
  log : C → List Effect
  phase : LoopPhase
  activeChannels : List (C × Mask)
  stack : List (Frame C)
  pendingFunctors : List (ConnFunctor C)
  functors : List (ConnFunctor C)
  storing : List C
  posting : List (ConnFunctor C)
  connections : C → Bool
  serverAlive : Bool
  removals : C → ℕ
  destroyed : C → List Destroyed
  late : C → Bool

/-- What can happen on a loop. The first group is the loop itself, the second user code on the loop
thread, the third other threads, the last the server. -/
inductive IoLabel (C : Type*) where
  | establish (c : C)
  | poll (batch : List (C × Mask))
  | event (r : ReadResult)
  | resume (w : WriteResult)
  | doPendingFunctors
  | functor (w : WriteResult) (log : ErrnoTrail)
  | loopAgain
  | send (c : C) (msg : Message) (w : WriteResult) (log : ErrnoTrail)
  | shutdown (c : C)
  | retrieve (c : C) (len : ℕ)
  | otherSend (c : C) (msg : Message)
  | otherShutdown (c : C)
  | otherStore (i : ℕ)
  | otherOverwritten (i : ℕ)
  | otherQueue (i : ℕ)
  | removeConnection (c : C)
  | destroyServer
  | destroy (c : C)
  | destroyLater (c : C)

namespace IoLoop

variable {C : Type*} [DecidableEq C] (s : IoLoop C)

/-- One connection of the loop. -/
def io (c : C) : Io := ⟨s.conns c, s.poller, s.log c⟩

/-- The loop after a call has changed one connection and the poller. -/
def put (c : C) (x : Io) : IoLoop C :=
  { s with
    conns := Function.update s.conns c x.conn
    poller := x.poller
    log := Function.update s.log c x.effects }

/-- Run a function of one connection; a fault ends the run. -/
def exec (c : C) (f : Io → Except Fault Io) : Option (IoLoop C) :=
  (f (s.io c)).toOption.map (s.put c)

/-- Run `send` or `sendInLoop` of one connection; a fault and the death of the process end the run. -/
def execSend (c : C) (f : Io → Except Fault Io) : Option (IoLoop C) :=
  ((f (s.io c)).toOption.filter Io.survives).map (s.put c)

/-- `epoll_wait` may report the event: it is one of the registered ones, an error or a hang-up. -/
def reports (c : C) (revents : Mask) : Bool :=
  match s.poller.interest (s.conns c).channel.fd with
  | some (events, ptr) => ptr == (s.conns c).channel.address && revents != 0 &&
      revents &&& ~~~(events ||| EPOLLERR ||| EPOLLHUP) == 0
  | none => false

/-- `poll`: every channel is reported once at most. -/
def poll (batch : List (C × Mask)) : Option (IoLoop C) :=
  if s.phase = .polling ∧ s.stack.isEmpty ∧ (batch.map Prod.fst).Nodup ∧
      batch.all (fun (c, m) => s.reports c m) then
    some { s with phase := .dispatching, activeChannels := batch }
  else none

/-- `handleEvent` on the next active channel, up to and including its first callback. -/
def event (r : ReadResult) : Option (IoLoop C) :=
  match s.phase, s.stack, s.activeChannels with
  | .dispatching, [], (c, revents) :: rest =>
    if (ConnCall.handleRead r).legal (s.io c) then
      ({ s with activeChannels := rest, stack := [.handleEvent c revents] } : IoLoop C).exec c
        (·.handleEventRead revents r)
    else none
  | _, _, _ => none

/-- `connectDestroyed` from `remove` on. -/
def finishDestroy (c : C) : Option (IoLoop C) :=
  (s.exec c (·.onChannel Channel.remove)).map fun s' =>
    let left := s'.destroyed c ++ [(s'.io c).destroyed]
    { s' with destroyed := Function.update s'.destroyed c left }

/-- `connectDestroyed`: it returns to the loop thread's user code behind its callback, when it has
one. -/
def connectDestroyed (c : C) : Option (IoLoop C) :=
  if (s.conns c).state = .kConnected then
    ({ s with stack := .connectDestroyed c :: s.stack } : IoLoop C).exec c Io.notifyDestroyed
  else s.finishDestroy c

/-- The callback on top of the stack returns. -/
def resume (w : WriteResult) : Option (IoLoop C) :=
  match s.stack with
  | .handleEvent c revents :: rest =>
    if w.fits (s.conns c).outputBuffer.readableBytes then
      ({ s with stack := rest } : IoLoop C).exec c (·.handleEventWrite revents w)
    else none
  | .connectDestroyed c :: rest => ({ s with stack := rest } : IoLoop C).finishDestroy c
  | [] => none

/-- Record whether a functor behind `connectDestroyed` has touched the socket or the poller. -/
def noteLate (c : C) (s' : IoLoop C) : IoLoop C :=
  let touched := !(s.destroyed c).isEmpty && (s.io c).touches (s'.io c)
  { s' with late := Function.update s'.late c (s'.late c || touched) }

/-- Run one functor. `connectEstablished` was queued in front of the connection's
`connectDestroyed`. -/
def runFunctor (w : WriteResult) (log : ErrnoTrail) : ConnFunctor C → Option (IoLoop C)
  | .sendInLoop c msg =>
    if w.fits msg.bytes.length then
      (s.execSend c (·.sendInLoop msg w log)).map (s.noteLate c)
    else none
  | .shutdownInLoop c => some (s.noteLate c (s.put c (s.io c).shutdownInLoop))
  | .connectDestroyed c => if (s.conns c).state ≠ .kConnecting then s.connectDestroyed c else none

/-- `doPendingFunctors` takes the vector. -/
def doPendingFunctors : Option (IoLoop C) :=
  if s.phase = .dispatching ∧ s.activeChannels.isEmpty ∧ s.stack.isEmpty then
    some { s with
      phase := .callingPendingFunctors
      functors := s.pendingFunctors
      pendingFunctors := [] }
  else none

/-- `doPendingFunctors` runs the next functor of the vector. -/
def functor (w : WriteResult) (log : ErrnoTrail) : Option (IoLoop C) :=
  match s.phase, s.stack, s.functors with
  | .callingPendingFunctors, [], f :: rest =>
    ({ s with functors := rest } : IoLoop C).runFunctor w log f
  | _, _, _ => none

/-- The loop goes back to its poll. -/
def loopAgain : Option (IoLoop C) :=
  if s.phase = .callingPendingFunctors ∧ s.functors.isEmpty ∧ s.stack.isEmpty then
    some { s with phase := .polling }
  else none

/-- `queueInLoop`. -/
def queueInLoop (f : ConnFunctor C) : IoLoop C :=
  { s with pendingFunctors := s.pendingFunctors ++ [f] }

/-- Another thread has passed the test of `shutdown` and stores `kDisconnecting`, or has its store
overwritten by the one of the loop thread. -/
def otherStore (i : ℕ) (overwritten : Bool) : Option (IoLoop C) :=
  match s.storing[i]? with
  | none => none
  | some c =>
    let s₁ := if overwritten then s else s.put c ((s.io c).setState .kDisconnecting)
    some { s₁ with
      storing := s.storing.eraseIdx i
      posting := s.posting ++ [.shutdownInLoop c] }

/-- Another thread queues the functor it has bound. -/
def otherQueue (i : ℕ) : Option (IoLoop C) :=
  match s.posting[i]? with
  | none => none
  | some f => some (({ s with posting := s.posting.eraseIdx i } : IoLoop C).queueInLoop f)

/-- `removeConnectionInLoop`, behind a close callback that has not had one yet. -/
def removeConnection (c : C) : Option (IoLoop C) :=
  if s.serverAlive ∧ s.removals c < closes (s.log c) then
    some (({ s with
      removals := Function.update s.removals c (s.removals c + 1)
      connections := Function.update s.connections c false } : IoLoop C).queueInLoop
        (.connectDestroyed c))
  else none

/-- The part of `~TcpServer` that is about one connection of the map: `connectDestroyed` runs at once
on the loop thread and is queued from any other. -/
def destroy (c : C) (inLoop : Bool) : Option (IoLoop C) :=
  if !s.serverAlive ∧ s.connections c then
    let s₁ : IoLoop C := { s with connections := Function.update s.connections c false }
    if inLoop then
      if (s.conns c).state ≠ .kConnecting then s₁.connectDestroyed c else none
    else some (s₁.queueInLoop (.connectDestroyed c))
  else none

/-- One step. -/
def step : IoLabel C → Option (IoLoop C)
  | .establish c => if (s.conns c).state = .kConnecting then s.exec c Io.connectEstablished else none
  | .poll batch => s.poll batch
  | .event r => s.event r
  | .resume w => s.resume w
  | .doPendingFunctors => s.doPendingFunctors
  | .functor w log => s.functor w log
  | .loopAgain => s.loopAgain
  | .send c msg w log =>
    if w.fits msg.bytes.length then s.execSend c (·.send msg w log) else none
  | .shutdown c => some (s.put c (s.io c).shutdown)
  | .retrieve c len => some (s.put c
      { s.io c with conn := { s.conns c with inputBuffer := (s.conns c).inputBuffer.retrieve len } })
  | .otherSend c msg =>
    if (s.conns c).state = .kConnected then
      some { s with posting := s.posting ++ [.sendInLoop c msg] }
    else none
  | .otherShutdown c =>
    if (s.conns c).state = .kConnected then some { s with storing := s.storing ++ [c] } else none
  | .otherStore i => s.otherStore i false
  | .otherOverwritten i => s.otherStore i true
  | .otherQueue i => s.otherQueue i
  | .removeConnection c => s.removeConnection c
  | .destroyServer => if s.serverAlive then some { s with serverAlive := false } else none
  | .destroy c => s.destroy c true
  | .destroyLater c => s.destroy c false

end IoLoop

/-- The connections a loop will serve, with their descriptors, and the poller they come to. -/
structure Fleet (C : Type*) where
  address : C → ℕ
  fd : C → ℕ
  highWaterMark : C → ℕ
  writeCompleteCallback : C → Bool
  highWaterMarkCallback : C → Bool
  poller : EpollPoller
  distinct : Function.Injective fd
  unknown : ∀ c, poller.channels (fd c) = none ∧ poller.interest (fd c) = none

namespace Fleet

variable {C : Type*} (fleet : Fleet C)

/-- What the constructor of one connection gets. -/
def opening (c : C) : Opening where
  address := fleet.address c
  fd := fleet.fd c
  highWaterMark := fleet.highWaterMark c
  writeCompleteCallback := fleet.writeCompleteCallback c
  highWaterMarkCallback := fleet.highWaterMarkCallback c
  poller := fleet.poller
  unknown := fleet.unknown c

/-- The loop before any connection is established. -/
def start : IoLoop C where
  conns c := (fleet.opening c).constructed.conn
  poller := fleet.poller
  log _ := []
  phase := .polling
  activeChannels := []
  stack := []
  pendingFunctors := []
  functors := []
  storing := []
  posting := []
  connections _ := true
  serverAlive := true
  removals _ := 0
  destroyed _ := []
  late _ := false

/-- Two connections on a loop that knows no other channel. -/
def pair : Fleet Bool where
  address c := c.toNat + 1
  fd c := c.toNat + 5
  highWaterMark _ := 67108864
  writeCompleteCallback _ := false
  highWaterMarkCallback _ := false
  poller := .empty
  distinct c d h := by
    revert c d
    decide
  unknown _ := ⟨rfl, rfl⟩

end Fleet

end CcMuduo
