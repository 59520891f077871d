import CcMuduo.IoLoop
import CcMuduo.TcpServer
import Mathlib.Data.Fin.VecNotation

/-!
# The server with its loops

`TcpServer` and its connections on the base loop and any number of I/O loops. A connection is known by its
number and lives on the loop that `newConnection` gave it to. Every loop polls, dispatches its active
channels, and then runs the functors that were queued until it took the vector; the steps of the loops
interleave. A callback hands its thread to user code, and the functions with code behind a callback wait
on the stack of their loop, so the close callback is called behind the down notification, and a
connection that the base loop serves itself is established inside `newConnection`.

User code on the loop of a connection reaches it through the argument of a callback, or through a
`TcpConnectionPtr` it has kept. Other threads need a kept one; their `send` and `shutdown` take a step for
each access to the state and for the queueing. What a loop thread does to a connection that is gone is
undefined, and ends the run.
-/

namespace CcMuduo

open Foundation

/-- The functors the server and its connections queue. -/
inductive ServerFunctor where
  | connectEstablished (c : ℕ)
  | removeConnectionInLoop (c : ℕ)
  | connectDestroyed (c : ℕ)
  | callback (c : ℕ)
  | sendInLoop (c : ℕ)
  | shutdownInLoop (c : ℕ)
  deriving DecidableEq, Repr

namespace ServerFunctor

/-- The connection of the functor. -/
def target : ServerFunctor → ℕ
  | .connectEstablished c | .removeConnectionInLoop c | .connectDestroyed c | .callback c
  | .sendInLoop c | .shutdownInLoop c => c

/-- Is the connection bound by its raw pointer? The other functors hold a `TcpConnectionPtr`. -/
def raw : ServerFunctor → Bool
  | .sendInLoop _ | .shutdownInLoop _ => true
  | .connectEstablished _ | .removeConnectionInLoop _ | .connectDestroyed _ | .callback _ => false

/-- Does the functor hold a reference to the connection? -/
def holds (c : ℕ) (f : ServerFunctor) : Bool := !f.raw && f.target == c

end ServerFunctor

/-- A function on the stack of a loop thread that is in user code. Each holds a reference to its
connection: the local `conn` of `newConnection`, the guard of `handleEvent`, `connPtr` in `handleClose`,
the argument of a callback in the others. -/
inductive ServerFrame where
  | newConnection (c : ℕ)
  | connectEstablished (c : ℕ)
  | handleEvent (c : ℕ) (revents : Mask)
  | handleClose (c : ℕ)
  | connectDestroyed (c : ℕ)
  | callback (c : ℕ)
  deriving DecidableEq

/-- The connection of the function. -/
def ServerFrame.target : ServerFrame → ℕ
  | .newConnection c | .connectEstablished c | .handleEvent c _ | .handleClose c | .connectDestroyed c
  | .callback c => c

/-- What happens to a connection in its life: the entry into the map and its erasure, the beginning and
the end of `connectEstablished` and `connectDestroyed`, its event handlers and its notifications. -/
inductive LifeEvent where
  | inserted
  | establishing
  | established
  | handler
  | notification
  | removed
  | destroying
  | destroyed
  deriving DecidableEq, Repr

/-- The server, its connections and its loops. `called` is the part of the vector of `doPendingFunctors`
that has been run and `functors` the rest of it; both are kept until it returns. `pointers` counts the
references that user code keeps, `storing` the calls of `shutdown` on other threads between test and
store, and `posting` the functors that other threads are about to queue. -/
structure ServerSystem (L : Type*) where
  server : TcpServer L
  names : ℕ → List Char
  home : ℕ → L
  conns : ℕ → TcpConnection
  log : ℕ → List Effect
  life : ℕ → List LifeEvent
  poller : L → EpollPoller
  phase : L → LoopPhase
  activeChannels : L → List (ℕ × Mask)
  stack : L → List ServerFrame
  pendingFunctors : L → List ServerFunctor
  called : L → List ServerFunctor
  functors : L → List ServerFunctor
  pointers : ℕ → ℕ
  storing : List ℕ
  posting : List ServerFunctor

/-- What can happen. The first group is the loops, then come user code on the loop of a connection, the
references of user code, and other threads. `functor` carries the bytes that a queued `sendInLoop`
finds. -/
inductive ServerLabel (L : Type*) where
  | accept
  | poll (l : L) (batch : List (ℕ × Mask))
  | event (l : L) (r : ReadResult)
  | resume (l : L) (w : WriteResult)
  | doPendingFunctors (l : L)
  | functor (l : L) (msg : Message) (w : WriteResult) (log : ErrnoTrail)
  | loopAgain (l : L)
  | call (c : ℕ) (call : ConnCall)
  | take (c : ℕ)
  | release (c : ℕ)
  | otherSend (c : ℕ)
  | otherShutdown (c : ℕ)
  | otherStore (i : ℕ) (overwritten : Bool)
  | otherQueue (i : ℕ)

namespace ServerSystem

variable {L : Type*} [DecidableEq L] (s : ServerSystem L)

/-- The loops of the server. -/
def loops : List L := s.server.loop :: s.server.threadPool.loops

/-- One connection on its loop. -/
def io (c : ℕ) : Io := ⟨s.conns c, s.poller (s.home c), s.log c⟩

/-- The functors that a loop has still to run, in order. -/
def queued (l : L) : List ServerFunctor := s.functors l ++ s.pendingFunctors l

/-- Is there a strong reference to the connection? -/
def strong (c : ℕ) : Bool :=
  s.server.connections (s.names c) == some c || decide (0 < s.pointers c) ||
    s.loops.any fun l => (s.stack l).any (·.target == c) || (s.called l ++ s.queued l).any (·.holds c)

/-- May user code on the loop of the connection call it? -/
def reaches (c : ℕ) : Bool :=
  s.phase (s.home c) != .polling &&
    ((s.stack (s.home c)).any (·.target == c) || decide (0 < s.pointers c))

/-- Record an event of a life. -/
def note (c : ℕ) (e : LifeEvent) : ServerSystem L :=
  { s with life := Function.update s.life c (s.life c ++ [e]) }

/-- `queueInLoop`. -/
def queueInLoop (l : L) (f : ServerFunctor) : ServerSystem L :=
  { s with pendingFunctors := Function.update s.pendingFunctors l (s.pendingFunctors l ++ [f]) }

/-- A function comes to user code. -/
def push (l : L) (f : ServerFrame) : ServerSystem L :=
  { s with stack := Function.update s.stack l (f :: s.stack l) }

/-- The system behind a function of one connection, without what it has started. -/
def put (c : ℕ) (x : Io) : ServerSystem L :=
  { s with
    conns := Function.update s.conns c x.conn
    poller := Function.update s.poller (s.home c) x.poller
    log := Function.update s.log c x.effects }

/-- What an effect of a connection starts: the callbacks it queues hold the connection, and the close
callback is called when the down notification has returned. -/
def start (c : ℕ) (s : ServerSystem L) : Effect → ServerSystem L
  | .queueWriteComplete | .queueHighWaterMark _ => s.queueInLoop (s.home c) (.callback c)
  | .connectionCallback _ | .messageCallback _ _ => s.note c .notification
  | .closeCallback => s.push (s.home c) (.handleClose c)
  | .write _ | .formatLiteral _ | .shutdownWrite _ => s

/-- The system behind a function of one connection. -/
def perform (c : ℕ) (x : Io) : ServerSystem L :=
  (x.effects.drop (s.log c).length).foldl (start c) (s.put c x)

/-- Run a function of one connection; a fault ends the run. -/
def exec (c : ℕ) (f : Io → Except Fault Io) : Option (ServerSystem L) :=
  (f (s.io c)).toOption.map (s.perform c)

/-- Run a call of one connection. -/
def call (c : ℕ) (call : ConnCall) : Option (ServerSystem L) :=
  (callStep (s.io c) call).map (s.perform c)

/-- The uppermost function of a loop is left. -/
def popFrame (l : L) : ServerSystem L :=
  { s with stack := Function.update s.stack l (s.stack l).tail }

/-- The next active channel of a loop is taken. -/
def popActive (l : L) : ServerSystem L :=
  { s with activeChannels := Function.update s.activeChannels l (s.activeChannels l).tail }

/-- The next functor of a loop's vector is taken. -/
def popFunctor (l : L) : ServerSystem L :=
  { s with
    called := Function.update s.called l (s.called l ++ (s.functors l).head?.toList)
    functors := Function.update s.functors l (s.functors l).tail }

/-- `connectEstablished` has begun. -/
def establishing (c : ℕ) : ServerSystem L :=
  (s.note c .establishing).push (s.home c) (.connectEstablished c)

/-- `connectEstablished` up to its callback. -/
def connectEstablished (c : ℕ) : Option (ServerSystem L) :=
  (s.establishing c).exec c Io.connectEstablished

/-- The entry of a new connection into the records. -/
def insert (ioLoop : L) (connName : List Char) (c : ℕ) (server : TcpServer L) : ServerSystem L :=
  { s with
    server := server
    names := Function.update s.names c connName
    home := Function.update s.home c ioLoop
    life := Function.update s.life c (s.life c ++ [.inserted]) }

/-- `newConnection`, from the event of the acceptor. The number is that of an `int`: behind its last one
there is no further accept, so the runs end where `nextConnId_` would overflow. -/
def newConnection : Option (ServerSystem L) :=
  if s.phase s.server.loop = .dispatching ∧ s.stack s.server.loop = [] ∧ s.server.nextConnId < 2 ^ 31 then
    s.server.newConnection.bind fun (ioLoop, connName, c, server) =>
      let s₁ := s.insert ioLoop connName c server
      if ioLoop = s.server.loop then (s₁.push ioLoop (.newConnection c)).connectEstablished c
      else some (s₁.queueInLoop ioLoop (.connectEstablished c))
  else none

/-- `removeConnectionInLoop`. -/
def removeConnectionInLoop (c : ℕ) : ServerSystem L :=
  (({ s with server := s.server.erase (s.names c) } : ServerSystem L).note c .removed).queueInLoop
    (s.home c) (.connectDestroyed c)

/-- `removeConnection`, on the loop of the connection. -/
def removeConnection (c : ℕ) : ServerSystem L :=
  if s.home c = s.server.loop then s.removeConnectionInLoop c
  else s.queueInLoop s.server.loop (.removeConnectionInLoop c)

/-- `connectDestroyed` from `remove` on. -/
def finishDestroy (c : ℕ) : Option (ServerSystem L) :=
  (s.exec c (·.onChannel Channel.remove)).map (·.note c .destroyed)

/-- `connectDestroyed` up to its callback, when it has one. -/
def connectDestroyed (c : ℕ) : Option (ServerSystem L) :=
  let s₁ := s.note c .destroying
  if (s.conns c).state = .kConnected then
    (s₁.push (s.home c) (.connectDestroyed c)).exec c Io.notifyDestroyed
  else s₁.finishDestroy c

/-- `poll`: every channel is reported once at most, with events that are registered, errors or
hangups. -/
def poll (l : L) (batch : List (ℕ × Mask)) : Option (ServerSystem L) :=
  let reports (c : ℕ) (revents : Mask) : Bool :=
    match (s.poller l).interest (s.conns c).channel.fd with
    | some (events, ptr) => ptr == (s.conns c).channel.address && revents != 0 &&
        revents &&& ~~~(events ||| EPOLLERR ||| EPOLLHUP) == 0
    | none => false
  if s.phase l = .polling ∧ s.stack l = [] ∧ (batch.map Prod.fst).Nodup ∧
      batch.all (fun (c, m) => reports c m) then
    some { s with
      phase := Function.update s.phase l .dispatching
      activeChannels := Function.update s.activeChannels l batch }
  else none

/-- `handleEvent` on the next active channel, up to its first callback. -/
def event (l : L) (r : ReadResult) : Option (ServerSystem L) :=
  match s.phase l, s.stack l, s.activeChannels l with
  | .dispatching, [], (c, revents) :: _ =>
    if s.strong c ∧ (ConnCall.handleRead r).legal (s.io c) then
      (((s.popActive l).note c .handler).push l (.handleEvent c revents)).exec c
        (·.handleEventRead revents r)
    else none
  | _, _, _ => none

/-- The callback of the uppermost function returns. -/
def resume (l : L) (w : WriteResult) : Option (ServerSystem L) :=
  (s.stack l).head?.bind fun
    | .newConnection _ | .callback _ => some (s.popFrame l)
    | .connectEstablished c => some ((s.popFrame l).note c .established)
    | .handleEvent c revents =>
      if w.fits (s.conns c).outputBuffer.readableBytes then
        (s.popFrame l).exec c (·.handleEventWrite revents w)
      else none
    | .handleClose c => some ((s.popFrame l).removeConnection c)
    | .connectDestroyed c => (s.popFrame l).finishDestroy c

/-- `doPendingFunctors` takes the vector. -/
def doPendingFunctors (l : L) : Option (ServerSystem L) :=
  if s.phase l = .dispatching ∧ s.activeChannels l = [] ∧ s.stack l = [] then
    some { s with
      phase := Function.update s.phase l .callingPendingFunctors
      functors := Function.update s.functors l (s.pendingFunctors l)
      pendingFunctors := Function.update s.pendingFunctors l [] }
  else none

/-- Run one functor. -/
def runFunctor (msg : Message) (w : WriteResult) (log : ErrnoTrail) :
    ServerFunctor → Option (ServerSystem L)
  | .connectEstablished c => s.connectEstablished c
  | .removeConnectionInLoop c => some (s.removeConnectionInLoop c)
  | .connectDestroyed c => s.connectDestroyed c
  | .callback c => some ((s.note c .notification).push (s.home c) (.callback c))
  | .sendInLoop c => if s.strong c then s.call c (.sendInLoop msg w log) else none
  | .shutdownInLoop c => if s.strong c then some (s.perform c (s.io c).shutdownInLoop) else none

/-- `doPendingFunctors` runs the next functor of the vector. -/
def functor (l : L) (msg : Message) (w : WriteResult) (log : ErrnoTrail) : Option (ServerSystem L) :=
  match s.phase l, s.stack l, s.functors l with
  | .callingPendingFunctors, [], f :: _ => (s.popFunctor l).runFunctor msg w log f
  | _, _, _ => none

/-- `doPendingFunctors` returns, and the loop goes back to its poll. -/
def loopAgain (l : L) : Option (ServerSystem L) :=
  if s.phase l = .callingPendingFunctors ∧ s.functors l = [] ∧ s.stack l = [] then
    some { s with
      phase := Function.update s.phase l .polling
      called := Function.update s.called l [] }
  else none

/-- Is another thread in a call of the connection? -/
def inCall (c : ℕ) : Bool := s.storing.any (· == c) || s.posting.any (·.target == c)

/-- Another thread stores `kDisconnecting`, or has its store overwritten by that of the loop thread. -/
def otherStore (i : ℕ) (overwritten : Bool) : Option (ServerSystem L) :=
  match s.storing[i]? with
  | none => none
  | some c =>
    let conn := if overwritten then s.conns c else { s.conns c with state := .kDisconnecting }
    some { s with
      conns := Function.update s.conns c conn
      storing := s.storing.eraseIdx i
      posting := s.posting ++ [.shutdownInLoop c] }

/-- Another thread queues the functor it has bound. -/
def otherQueue (i : ℕ) : Option (ServerSystem L) :=
  match s.posting[i]? with
  | none => none
  | some f => some (({ s with posting := s.posting.eraseIdx i } : ServerSystem L).queueInLoop
      (s.home f.target) f)

/-- One step. A reference is taken in a callback of the connection or copied from another one, and it is
kept until the calls through it have returned. -/
def step (s : ServerSystem L) : ServerLabel L → Option (ServerSystem L)
  | .accept => s.newConnection
  | .poll l batch => s.poll l batch
  | .event l r => s.event l r
  | .resume l w => s.resume l w
  | .doPendingFunctors l => s.doPendingFunctors l
  | .functor l msg w log => s.functor l msg w log
  | .loopAgain l => s.loopAgain l
  | .call c call => if s.reaches c ∧ call.byUser then s.call c call else none
  | .take c =>
    if s.reaches c ∨ 0 < s.pointers c then
      some { s with pointers := Function.update s.pointers c (s.pointers c + 1) }
    else none
  | .release c =>
    if 0 < s.pointers c ∧ (s.inCall c → 1 < s.pointers c) then
      some { s with pointers := Function.update s.pointers c (s.pointers c - 1) }
    else none
  | .otherSend c =>
    if 0 < s.pointers c ∧ (s.conns c).state = .kConnected then
      some { s with posting := s.posting ++ [.sendInLoop c] }
    else none
  | .otherShutdown c =>
    if 0 < s.pointers c ∧ (s.conns c).state = .kConnected then
      some { s with storing := s.storing ++ [c] }
    else none
  | .otherStore i overwritten => s.otherStore i overwritten
  | .otherQueue i => s.otherQueue i

end ServerSystem

/-- A server that listens and has accepted nobody, its loops, and what the kernel and the allocator will
give to its connections. A descriptor stands for one socket. -/
structure Deployment (L : Type*) where
  server : TcpServer L
  poller : L → EpollPoller
  opening : ℕ → Opening
  distinct : ∀ c d, (opening c).fd = (opening d).fd → c = d
  unknown : ∀ l c, (poller l).channels (opening c).fd = none ∧ (poller l).interest (opening c).fd = none
  short : server.ipPort.length ≤ 15
  first : server.nextConnId = 1
  empty : ∀ n, server.connections n = none
  baseloop : server.threadPool.baseloop = server.loop

/-- The server and its loops in front of the first connection. -/
def Deployment.listening {L : Type*} (d : Deployment L) : ServerSystem L where
  server := d.server
  names _ := []
  home _ := d.server.loop
  conns c := (d.opening c).constructed.conn
  log _ := []
  life _ := []
  poller := d.poller
  phase _ := .polling
  activeChannels _ := []
  stack _ := []
  pendingFunctors _ := []
  called _ := []
  functors _ := []
  pointers _ := 0
  storing := []
  posting := []

/-- A server on the loopback address whose base loop serves all connections. -/
def Deployment.loopback : Deployment Unit where
  server := { TcpServer.constructed () ⟨![127, 0, 0, 1], 80⟩ "s".toList with listening := true }
  poller _ := .empty
  opening c := { Opening.fresh with address := c + 1, fd := c + 5, unknown := ⟨rfl, rfl⟩ }
  distinct _ _ h := Nat.add_right_cancel h
  unknown _ _ := ⟨rfl, rfl⟩
  short := by decide
  first := rfl
  empty _ := rfl
  baseloop := rfl

end CcMuduo
