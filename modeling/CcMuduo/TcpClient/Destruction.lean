import CcMuduo.IoLoop.Invariant
import CcMuduo.TcpClient.Connection

/-!
# The destruction of a client

The connection of a destroyed client is open, registered, and kept by whatever holds it apart from the
client. Nobody will queue `connectDestroyed` for it: its close callback calls the client. So it must not
lose its last reference, and it must not be closed.
-/

namespace CcMuduo

open Foundation

/-- The peer has closed its side. -/
def ReadResult.endOfFile : ReadResult → Bool
  | .received bytes => bytes.isEmpty
  | .failed _ => false

/-- The event ends in `handleClose`: a hangup, or a read that finds the end. -/
def eventCloses (revents : Mask) (r : ReadResult) : Bool :=
  !hasAny revents EPOLLERR &&
    (hasAny revents (EPOLLHUP ||| EPOLLRDHUP) ||
      hasAny revents (EPOLLIN ||| EPOLLPRI) && r.endOfFile)

namespace Io

variable {s s' : Io}

/-- The write half of the event empties `outputBuffer` and queues the write complete callback. -/
def completes (s : Io) (revents : Mask) (w : WriteResult) : Bool :=
  !hasAny revents (EPOLLERR ||| EPOLLHUP ||| EPOLLRDHUP) && hasAny revents EPOLLOUT &&
    decide (s.drains w) && s.conn.writeCompleteCallback

/-- How often a function comes to the close callback, and how many callbacks it queues. -/
def Adds (s s' : Io) (closings queued : ℕ) : Prop :=
  ∃ new, s'.effects = s.effects ++ new ∧ closes new = closings ∧ new.countP Effect.queues = queued

/-- A function that does not come to the close callback and leaves the state alone. -/
def GoesOn (s s' : Io) (queued : ℕ) : Prop := Adds s s' 0 queued ∧ s'.conn.state = s.conn.state

/-- A function that comes to the close callback. -/
def Closes (s s' : Io) : Prop := ∃ queued, Adds s s' 1 queued ∧ s'.conn.state = .kDisconnected

/-- A function without effects. -/
theorem Adds.of_eq (h : s'.effects = s.effects) : Adds s s' 0 0 :=
  ⟨[], h.trans (List.append_nil _).symm, rfl, rfl⟩

/-- A function that does nothing. -/
theorem GoesOn.refl (s : Io) : GoesOn s s 0 := ⟨.of_eq rfl, rfl⟩

/-- `handleClose` comes to the close callback. -/
theorem ClosedAfter.closes {new : List Effect} (h : ClosedAfter s s' new) (hnew : CcMuduo.closes new = 0) :
    Closes s s' := by
  obtain ⟨p, index, -, rfl⟩ := h
  refine ⟨_, ⟨new ++ [.connectionCallback false, .closeCallback], List.append_assoc _ _ _, ?_, rfl⟩, rfl⟩
  rw [closes_append, hnew]
  rfl

/-- The read half of an event closes the connection or leaves it as it was. -/
theorem handleEventRead_outcome {revents : Mask} {r : ReadResult} (hsound : s.Sound)
    (hlegal : (ConnCall.handleRead r).legal s = true) (h : s.handleEventRead revents r = .ok s') :
    if eventCloses revents r then Closes s s' else GoesOn s s' 0 := by
  unfold handleEventRead at h
  split at h
  · rename_i herror
    obtain rfl := Except.ok.inj h
    rw [if_neg (by simp [eventCloses, herror])]
    exact .refl s
  · rename_i herror
    split at h
    · rename_i hhup
      rw [if_pos (by simp [eventCloses, herror, hhup])]
      exact (handleClose_closed h).closes rfl
    · rename_i hhup
      split at h
      · rename_i hin
        rcases handleRead_cases hsound.input h with
          ⟨errno, rfl, rfl⟩ | ⟨rfl, input, -, hclose⟩ | ⟨bytes, rfl, hne, hread⟩
        · rw [if_neg (by simp [eventCloses, hhup, ReadResult.endOfFile])]
          exact .refl s'
        · rw [if_pos (by simp [eventCloses, herror, hin, ReadResult.endOfFile])]
          exact hclose.closes rfl
        · obtain ⟨input, -, -, rfl⟩ := hread (by simpa [ConnCall.legal] using hlegal)
          rw [if_neg (by simp [eventCloses, hhup, ReadResult.endOfFile, hne])]
          exact ⟨⟨_, rfl, rfl, rfl⟩, rfl⟩
      · rename_i hin
        obtain rfl := Except.ok.inj h
        rw [if_neg (by simp [eventCloses, hhup, hin])]
        exact .refl s

/-- `handleWrite` queues the write complete callback when it empties the buffer. -/
theorem handleWrite_goesOn {w : WriteResult} (hsound : s.Sound)
    (hfits : w.fits s.conn.outputBuffer.readableBytes = true) (h : s.handleWrite w = .ok s') :
    GoesOn s s' (decide (s.drains w) && s.conn.writeCompleteCallback).toNat := by
  have hqueued := (handleWrite_queues hsound.output hfits h).queued
  have hsends : (∃ new, s'.effects = s.effects ++ new ∧ ∀ e ∈ new, e.isSend = true) ∧
      s'.conn.state = s.conn.state := by
    rcases handleWrite_cases hsound.output hfits h with
      ⟨-, hdrain⟩ | ⟨-, out, -, -, -, new, hsend, -, rfl⟩
    · exact ⟨hdrain.sends, hdrain.state⟩
    · exact ⟨⟨new, rfl, hsend⟩, rfl⟩
  obtain ⟨⟨new, heffects, hsend⟩, hstate⟩ := hsends
  refine ⟨⟨new, heffects, (Unnoticed.of_isSend hsend).closes, ?_⟩, hstate⟩
  rw [heffects, queuedCallbacks_append, List.append_cancel_left_eq] at hqueued
  rw [List.countP_eq_length_filter]
  change (queuedCallbacks new).length = _
  rw [hqueued, TcpConnection.writeComplete]
  by_cases hdrains : s.drains w <;> cases s.conn.writeCompleteCallback <;> simp [hdrains]

/-- The write half of an event. -/
theorem handleEventWrite_goesOn {revents : Mask} {w : WriteResult} (hsound : s.Sound)
    (hfits : w.fits s.conn.outputBuffer.readableBytes = true)
    (h : s.handleEventWrite revents w = .ok s') : GoesOn s s' (s.completes revents w).toNat := by
  unfold handleEventWrite at h
  split at h
  · rename_i hfailed
    obtain rfl := Except.ok.inj h
    simpa [completes, hfailed] using GoesOn.refl s
  · rename_i hfailed
    rw [Bool.not_eq_true] at hfailed
    split at h
    · rename_i hout
      have hgoes := handleWrite_goesOn hsound hfits h
      simpa only [completes, hfailed, hout, Bool.not_false, Bool.true_and] using hgoes
    · rename_i hout
      obtain rfl := Except.ok.inj h
      simpa [completes, hfailed, hout] using GoesOn.refl s

/-- `connectEstablished` adds the up notification. -/
theorem connectEstablished_adds (h : s.connectEstablished = .ok s') : Adds s s' 0 0 := by
  obtain ⟨s₁, h₁, heq⟩ := bind_eq_ok.mp h
  obtain ⟨p, index, -, rfl⟩ := onChannel_update (m := fun e => e ||| kReadEvent) h₁
  obtain rfl := Except.ok.inj heq
  exact ⟨_, rfl, rfl, rfl⟩

/-- `connectDestroyed` adds the down notification. -/
theorem notifyDestroyed_adds (hstate : s.conn.state = .kConnected) (h : s.notifyDestroyed = .ok s') :
    Adds s s' 0 0 := by
  rw [notifyDestroyed, if_pos hstate] at h
  obtain ⟨s₁, h₁, heq⟩ := bind_eq_ok.mp h
  obtain ⟨p, index, -, rfl⟩ := onChannel_update (m := fun _ => kNoneEvent) h₁
  obtain rfl := Except.ok.inj heq
  exact ⟨_, rfl, rfl, rfl⟩

/-- `shutdown` adds the half-close at most, and an open connection is in `kDisconnecting` behind it. -/
theorem shutdown_adds (s : Io) :
    Adds s s.shutdown 0 0 ∧ (s.conn.isOpen → s.shutdown.conn.state = .kDisconnecting) := by
  unfold shutdown
  split
  · unfold shutdownInLoop
    split
    · exact ⟨⟨_, rfl, rfl, rfl⟩, fun _ => rfl⟩
    · exact ⟨.of_eq rfl, fun _ => rfl⟩
  · rename_i hstate
    exact ⟨.of_eq rfl, fun hopen => hopen.resolve_left hstate⟩

/-- A call of user code closes a connected connection, or leaves an open one open. -/
theorem callStep_outcome {call : ConnCall} (hsound : s.Sound) (huser : call.byUser = true)
    (h : callStep s call = some s') :
    s.conn.state = .kConnected ∧ Closes s s' ∨
      ∃ queued, Adds s s' 0 queued ∧ (s.conn.isOpen → s'.conn.isOpen) := by
  obtain ⟨hlegal, hexec⟩ := callStep_eq_some.mp h
  cases call with
  | send msg w log =>
    simp only [ConnCall.exec, send] at hexec
    split at hexec
    · rename_i hstate
      have hsends (hsent : ∃ new, s'.effects = s.effects ++ new ∧ ∀ e ∈ new, e.isSend = true)
          (hsame : s'.conn.state = s.conn.state) :
          ∃ queued, Adds s s' 0 queued ∧ (s.conn.isOpen → s'.conn.isOpen) := by
        obtain ⟨new, heffects, hnew⟩ := hsent
        exact ⟨_, ⟨new, heffects, (Unnoticed.of_isSend hnew).closes, rfl⟩,
          (TcpConnection.isOpen_congr hsame).mpr⟩
      rcases sendInLoop_cases hsound.output hlegal hexec with
        ⟨hdown, -⟩ | ⟨-, -, -, new, hnew, hclose⟩ | ⟨-, -, -, hsent⟩ | ⟨-, -, hsent⟩
      · rw [hstate] at hdown
        contradiction
      · exact .inl ⟨hstate, hclose.closes (Unnoticed.of_isSend hnew).closes⟩
      · exact .inr (hsends hsent.sends hsent.state)
      · exact .inr (hsends hsent.sends hsent.state)
    · obtain rfl := Except.ok.inj hexec
      exact .inr ⟨0, .of_eq rfl, id⟩
  | shutdown =>
    obtain rfl := Except.ok.inj hexec
    exact .inr ⟨0, s.shutdown_adds.1, (shutdown_keeps hsound).stays⟩
  | retrieve len =>
    obtain rfl := Except.ok.inj hexec
    exact .inr ⟨0, .of_eq rfl, id⟩
  | sendInLoop | handleRead | handleWrite => contradiction

end Io

namespace ClientLoop

variable {s s' : ClientLoop}

/-- What a step does. -/
inductive Step (s : ClientLoop) : ClientLoopLabel → ClientLoop → Prop where
  | newConnection {x : Io} (hstack : s.stack = []) (halive : s.alive = true)
      (hstate : s.io.conn.state = .kConnecting) (hx : s.io.connectEstablished = .ok x) :
    Step s .newConnection
      (({ s with connection_ := true, stack := [.newConnection] } : ClientLoop).perform x)
  | poll {revents : Option Mask} (hphase : s.phase = .polling) :
    Step s (.poll revents) { s with phase := .dispatching, active := revents }
  | event {r : ReadResult} {revents : Mask} {x : Io} (hstack : s.stack = [])
      (hactive : s.active = some revents) (hstrong : s.strong = true)
      (hlegal : (ConnCall.handleRead r).legal s.io = true)
      (hx : s.io.handleEventRead revents r = .ok x) :
    Step s (.event r)
      (({ s with active := none, stack := [.handleEvent revents] } : ClientLoop).perform x)
  | returned {w : WriteResult} {f : ClientFrame} {rest : List ClientFrame} (hstack : s.stack = f :: rest)
      (hf : f = .newConnection ∨ f = .callback) :
    Step s (.resume w) { s with stack := rest }
  | eventWrite {w : WriteResult} {revents : Mask} {rest : List ClientFrame} {x : Io}
      (hstack : s.stack = .handleEvent revents :: rest)
      (hfits : w.fits s.io.conn.outputBuffer.readableBytes = true)
      (hx : s.io.handleEventWrite revents w = .ok x) :
    Step s (.resume w) (({ s with stack := rest } : ClientLoop).perform x)
  | closed {w : WriteResult} {rest : List ClientFrame} (hstack : s.stack = .handleClose :: rest)
      (halive : s.alive = true) :
    Step s (.resume w) { s with
      stack := rest
      connection_ := false
      pendingFunctors := s.pendingFunctors ++ [.connectDestroyed] }
  | destroyed {w : WriteResult} {rest : List ClientFrame} {x : Io}
      (hstack : s.stack = .connectDestroyed :: rest) (hx : s.io.onChannel Channel.remove = .ok x) :
    Step s (.resume w) (({ s with stack := rest } : ClientLoop).perform x)
  | doPendingFunctors (hphase : s.phase = .dispatching) :
    Step s .doPendingFunctors { s with
      phase := .callingPendingFunctors
      functors := s.pendingFunctors
      pendingFunctors := [] }
  | destroyNotify {rest : List ClientFunctor} {x : Io} (hphase : s.phase = .callingPendingFunctors)
      (hstack : s.stack = []) (hfunctors : s.functors = .connectDestroyed :: rest)
      (hstate : s.io.conn.state = .kConnected) (hx : s.io.notifyDestroyed = .ok x) :
    Step s .functor (({ s with
      called := s.called ++ [.connectDestroyed]
      functors := rest
      stack := .connectDestroyed :: s.stack } : ClientLoop).perform x)
  | destroy {rest : List ClientFunctor} {x : Io} (hphase : s.phase = .callingPendingFunctors)
      (hfunctors : s.functors = .connectDestroyed :: rest)
      (hx : s.io.onChannel Channel.remove = .ok x) :
    Step s .functor (({ s with
      called := s.called ++ [.connectDestroyed]
      functors := rest } : ClientLoop).perform x)
  | callback {rest : List ClientFunctor} (hphase : s.phase = .callingPendingFunctors)
      (hstack : s.stack = []) (hfunctors : s.functors = .callback :: rest) :
    Step s .functor { s with
      called := s.called ++ [.callback]
      functors := rest
      stack := [.callback] }
  | loopAgain (hfunctors : s.functors = []) (hstack : s.stack = []) :
    Step s .loopAgain { s with phase := .polling, called := [] }
  | others {poller : EpollPoller}
      (hsame : poller.channels s.io.conn.channel.fd = s.io.poller.channels s.io.conn.channel.fd ∧
        poller.interest s.io.conn.channel.fd = s.io.poller.interest s.io.conn.channel.fd) :
    Step s (.others poller) { s with io := { s.io with poller := poller } }
  | call {call : ConnCall} {x : Io} (hreaches : s.reaches = true) (huser : call.byUser = true)
      (hx : callStep s.io call = some x) :
    Step s (.call call) (s.perform x)
  | take (hreaches : s.reaches = true) : Step s .take { s with pointers := s.pointers + 1 }
  | release (hpointers : 0 < s.pointers) : Step s .release { s with pointers := s.pointers - 1 }
  | destroyClient (halive : s.alive = true) (hconnection : s.connection_ = true) :
    Step s .destroyClient { s.perform s.io.shutdown with
      alive := false
      connection_ := false
      orphaned := true }
  | destroyIdle (hconnection : s.connection_ = false) :
    Step s .destroyClient { s with alive := false }

/-- A function of the connection completed. -/
theorem exec_eq_some {f : Io → Except Fault Io} (h : s.exec f = some s') :
    ∃ x, f s.io = .ok x ∧ s' = s.perform x := by
  obtain ⟨x, hx, rfl⟩ := Option.map_eq_some_iff.mp h
  exact ⟨x, toOption_eq_some.mp hx, rfl⟩

/-- What the return of a callback does. -/
theorem resume_spec {w : WriteResult} (h : s.resume w = some s') : s.Step (.resume w) s' := by
  unfold resume at h
  split at h
  · contradiction
  · rename_i f rest hstack
    cases f with
    | newConnection => exact Option.some.inj h ▸ .returned hstack (.inl rfl)
    | callback => exact Option.some.inj h ▸ .returned hstack (.inr rfl)
    | handleEvent revents =>
      obtain ⟨hfits, hs⟩ := Option.ite_none_right_eq_some.mp h
      obtain ⟨x, hx, rfl⟩ := exec_eq_some hs
      exact .eventWrite hstack hfits hx
    | handleClose =>
      obtain ⟨⟨halive, -⟩, hs⟩ := Option.ite_none_right_eq_some.mp h
      exact Option.some.inj hs ▸ .closed hstack halive
    | connectDestroyed =>
      obtain ⟨x, hx, rfl⟩ := exec_eq_some h
      exact .destroyed hstack hx

/-- What a functor does. -/
theorem functor_spec (h : s.functor = some s') : s.Step .functor s' := by
  unfold functor at h
  split at h
  · rename_i f rest hphase hstack hfunctors
    cases f with
    | connectDestroyed =>
      simp only [connectDestroyed] at h
      split at h
      · rename_i hstate
        obtain ⟨x, hx, rfl⟩ := exec_eq_some h
        exact .destroyNotify hphase hstack hfunctors hstate hx
      · obtain ⟨x, hx, rfl⟩ := exec_eq_some h
        exact .destroy hphase hfunctors hx
    | callback => exact Option.some.inj h ▸ .callback hphase hstack hfunctors
  · contradiction

/-- Every step is one of these. -/
theorem step_spec {label : ClientLoopLabel} (h : s.step label = some s') : s.Step label s' := by
  cases label with
  | newConnection =>
    obtain ⟨⟨-, hstack, halive, hstate⟩, hs⟩ := Option.ite_none_right_eq_some.mp h
    obtain ⟨x, hx, rfl⟩ := exec_eq_some hs
    exact .newConnection hstack halive hstate hx
  | poll revents =>
    obtain ⟨⟨hphase, -⟩, hs⟩ := Option.ite_none_right_eq_some.mp h
    exact Option.some.inj hs ▸ .poll hphase
  | event r =>
    simp only [step, event] at h
    split at h
    · rename_i hphase hstack hactive
      obtain ⟨⟨hstrong, hlegal⟩, hs⟩ := Option.ite_none_right_eq_some.mp h
      obtain ⟨x, hx, rfl⟩ := exec_eq_some hs
      exact .event hstack hactive hstrong hlegal hx
    · contradiction
  | resume w => exact resume_spec h
  | doPendingFunctors =>
    obtain ⟨⟨hphase, -⟩, hs⟩ := Option.ite_none_right_eq_some.mp h
    exact Option.some.inj hs ▸ .doPendingFunctors hphase
  | functor => exact functor_spec h
  | loopAgain =>
    obtain ⟨⟨-, hfunctors, hstack⟩, hs⟩ := Option.ite_none_right_eq_some.mp h
    exact Option.some.inj hs ▸ .loopAgain hfunctors hstack
  | others poller =>
    obtain ⟨hsame, hs⟩ := Option.ite_none_right_eq_some.mp h
    exact Option.some.inj hs ▸ .others hsame
  | call call =>
    obtain ⟨⟨hreaches, huser⟩, hs⟩ := Option.ite_none_right_eq_some.mp h
    obtain ⟨x, hx, rfl⟩ := Option.map_eq_some_iff.mp hs
    exact .call hreaches huser hx
  | take =>
    obtain ⟨hreaches, hs⟩ := Option.ite_none_right_eq_some.mp h
    exact Option.some.inj hs ▸ .take hreaches
  | release =>
    obtain ⟨⟨-, hpointers⟩, hs⟩ := Option.ite_none_right_eq_some.mp h
    exact Option.some.inj hs ▸ .release hpointers
  | destroyClient =>
    obtain ⟨⟨halive, -⟩, hs⟩ := Option.ite_none_right_eq_some.mp h
    split at hs
    · rename_i hconnection
      exact Option.some.inj hs ▸ .destroyClient halive hconnection
    · rename_i hconnection
      exact Option.some.inj hs ▸ .destroyIdle (Bool.eq_false_iff.mpr hconnection)

/-- How many references there are apart from that of the client. -/
def references (s : ClientLoop) : ℕ := s.pointers + s.holders

/-- The next return goes to the close callback, which calls the client. -/
def callsClient (s : ClientLoop) : Prop := s.stack.head? = some .handleClose

instance (s : ClientLoop) : Decidable s.callsClient := inferInstanceAs (Decidable (_ = some _))

/-- The return of the callback ends in the write half of an event, which queues a callback. -/
def queuesCallback (s : ClientLoop) (w : WriteResult) : Bool :=
  match s.stack.head? with
  | some (.handleEvent revents) => s.io.completes revents w
  | _ => false

/-- The connection and what is on the way to it. -/
structure Core (s : ClientLoop) : Prop where
  sound : s.io.Sound
  alive : s.connection_ = true → s.alive = true
  gone : s.orphaned = true → s.alive = false
  fresh : s.io.conn.state = .kConnecting →
    s.io.Settled ∧ s.connection_ = false ∧ s.references = 0
  closing : .handleClose ∈ s.stack → s.io.conn.state = .kDisconnected
  top : .handleClose ∉ s.stack.tail
  lasting : s.connection_ = true ∨ s.orphaned = true →
    .connectDestroyed ∉ s.queued ∧ .connectDestroyed ∉ s.stack
  owned : s.connection_ = true → .handleClose ∉ s.stack → s.io.conn.isOpen ∧ s.io.Settled
  orphan : s.orphaned = true →
    .handleClose ∉ s.stack ∧ s.io.conn.state = .kDisconnecting ∧ s.io.Settled
  emptied : s.phase ≠ .callingPendingFunctors → s.called = [] ∧ s.functors = []

/-- The strong references are that of the client and the others. -/
theorem strong_iff : s.strong = true ↔ s.connection_ = true ∨ 0 < s.references := by
  simp only [strong, references, Bool.or_eq_true, decide_eq_true_eq, or_assoc,
    Nat.add_pos_iff_pos_or_pos]

/-- The loop behind a function of the connection. -/
theorem perform_of_adds {x : Io} {closings queued : ℕ} (h : Io.Adds s.io x closings queued) :
    s.perform x = { s with
      io := x
      stack := List.replicate closings .handleClose ++ s.stack
      pendingFunctors := s.pendingFunctors ++ List.replicate queued .callback } := by
  obtain ⟨new, heffects, rfl, rfl⟩ := h
  simp only [perform, heffects, List.drop_left]

/-- A function of the connection drops no reference, and adds one for each function and functor. -/
theorem references_perform {x : Io} {closings queued : ℕ} (h : Io.Adds s.io x closings queued) :
    (s.perform x).references = s.references + closings + queued := by
  rw [perform_of_adds h]
  simp only [references, holders, ClientLoop.queued, List.length_append, List.length_replicate]
  omega

/-- A function of the connection drops no reference. -/
theorem references_le_perform (x : Io) : s.references ≤ (s.perform x).references := by
  simp only [references, holders, queued, perform, List.length_append]
  omega

/-- The uppermost function is one reference. -/
theorem references_of_stack {f : ClientFrame} {rest : List ClientFrame} (hstack : s.stack = f :: rest) :
    s.references = ({ s with stack := rest } : ClientLoop).references + 1 := by
  simp only [references, holders, queued, hstack, List.length_cons]
  omega

/-- A functor on its way is a reference. -/
theorem references_of_functors {g : ClientFunctor} {functors : List ClientFunctor}
    (hfunctors : s.functors = g :: functors) : 0 < s.references := by
  simp only [references, holders, queued, hfunctors, List.length_append, List.length_cons]
  omega

namespace Core

variable {x : Io} {f : ClientFrame} {rest : List ClientFrame}

/-- A connection with references has begun. -/
theorem begun (h : s.Core) (hreferences : 0 < s.references) : s.io.conn.state ≠ .kConnecting := by
  intro hstate
  have hnone := (h.fresh hstate).2.2
  omega

/-- A function on the stack runs on a connection that has begun. -/
theorem begun_of_stack (h : s.Core) (hstack : s.stack = f :: rest) : s.io.conn.state ≠ .kConnecting :=
  h.begun (by
    rw [references_of_stack hstack]
    omega)

/-- User code reaches a connection that has begun. -/
theorem begun_of_reaches (h : s.Core) (hreaches : s.reaches = true) :
    s.io.conn.state ≠ .kConnecting := by
  intro hstate
  obtain ⟨-, hconnection, hnone⟩ := h.fresh hstate
  simp only [references, holders, Nat.add_eq_zero_iff, List.length_eq_zero_iff] at hnone
  simp [reaches, hconnection, hnone] at hreaches

/-- A callback returns to a function that is not the close callback. -/
theorem pop (h : s.Core) (hstack : s.stack = f :: rest) (hf : f ≠ .handleClose) :
    ({ s with stack := rest } : ClientLoop).Core := by
  have hmem {g : ClientFrame} (hg : g ∈ rest) : g ∈ s.stack := hstack ▸ List.mem_cons_of_mem f hg
  have hnone : .handleClose ∉ rest := by
    have htop := h.top
    rwa [hstack] at htop
  exact { h with
    fresh := fun hstate => absurd hstate (h.begun_of_stack hstack)
    closing := fun hclose => absurd hclose hnone
    top := fun hclose => hnone (List.mem_of_mem_tail hclose)
    lasting := fun hlasts => ⟨(h.lasting hlasts).1, fun hd => (h.lasting hlasts).2 (hmem hd)⟩
    owned := fun hconnection _ => h.owned hconnection (by simp [hstack, hf.symm, hnone])
    orphan := fun horphaned => ⟨hnone, (h.orphan horphaned).2⟩ }

/-- A function calls user code. -/
theorem push (h : s.Core) (hbegun : s.io.conn.state ≠ .kConnecting) (hstack : s.stack = [])
    (hf : f ≠ .handleClose)
    (hlasts : s.connection_ = true ∨ s.orphaned = true → f ≠ .connectDestroyed) :
    ({ s with stack := [f] } : ClientLoop).Core := by
  have hnone : .handleClose ∉ s.stack := by simp [hstack]
  exact { h with
    fresh := fun hstate => absurd hstate hbegun
    closing := fun hclose => absurd (List.mem_singleton.mp hclose).symm hf
    top := List.not_mem_nil
    lasting := fun hkept => ⟨(h.lasting hkept).1,
      fun hd => hlasts hkept (List.mem_singleton.mp hd).symm⟩
    owned := fun hconnection _ => h.owned hconnection hnone
    orphan := fun horphaned => ⟨fun hclose => hf (List.mem_singleton.mp hclose).symm,
      (h.orphan horphaned).2⟩ }

/-- The next functor of the vector. -/
theorem advance {g : ClientFunctor} {functors : List ClientFunctor} (h : s.Core)
    (hphase : s.phase = .callingPendingFunctors) (hfunctors : s.functors = g :: functors) :
    ({ s with called := s.called ++ [g], functors := functors } : ClientLoop).Core := by
  have hqueued : ({ s with called := s.called ++ [g], functors := functors } : ClientLoop).queued =
      s.queued := by
    simp [queued, hfunctors]
  exact { h with
    fresh := fun hstate => by
      obtain ⟨hsettled, hconnection, hnone⟩ := h.fresh hstate
      refine ⟨hsettled, hconnection, ?_⟩
      rwa [references, holders, hqueued]
    lasting := fun hkept => by
      rw [hqueued]
      exact h.lasting hkept
    emptied := fun hne => absurd hphase hne }

/-- A function of the connection that does not close it. -/
theorem goesOn {queued : ℕ} (h : s.Core) (hbegun : s.io.conn.state ≠ .kConnecting)
    (hmoves : Io.Moves s.io x) (hadds : Io.Adds s.io x 0 queued)
    (hkeeps : s.connection_ = true ∨ s.orphaned = true → Io.KeepsOpen s.io x)
    (hstate : s.orphaned = true → x.conn.state = s.io.conn.state) : (s.perform x).Core := by
  rw [perform_of_adds hadds]
  exact { h with
    sound := hmoves.sound
    fresh := fun hnew => absurd hnew (hmoves.begun hbegun)
    closing := fun hclose => hmoves.down (h.closing hclose)
    lasting := fun hkept => by
      obtain ⟨hqueued, hstack⟩ := h.lasting hkept
      refine ⟨?_, hstack⟩
      simp only [ClientLoop.queued, ← List.append_assoc, List.mem_append, List.mem_replicate] at hqueued ⊢
      simpa using hqueued
    owned := fun hconnection hnone => by
      obtain ⟨hopen, hsettled⟩ := h.owned hconnection hnone
      exact ⟨(hkeeps (.inl hconnection)).stays hopen, (hkeeps (.inl hconnection)).settled hsettled⟩
    orphan := fun horphaned => by
      obtain ⟨hnone, hdisconnecting, hsettled⟩ := h.orphan horphaned
      exact ⟨hnone, (hstate horphaned).trans hdisconnecting, (hkeeps (.inr horphaned)).settled hsettled⟩ }

/-- A function of the connection that closes it. -/
theorem closes (h : s.Core) (hmoves : Io.Moves s.io x) (hcloses : Io.Closes s.io x)
    (hnone : .handleClose ∉ s.stack) (horphaned : s.orphaned = false) : (s.perform x).Core := by
  obtain ⟨queued, hadds, hdown⟩ := hcloses
  rw [perform_of_adds hadds]
  exact { h with
    sound := hmoves.sound
    fresh := fun hnew => absurd (hdown.symm.trans hnew) (by simp)
    closing := fun _ => hdown
    top := hnone
    lasting := fun hkept => by
      obtain ⟨hqueued, hstack⟩ := h.lasting hkept
      refine ⟨?_, by simpa using hstack⟩
      simp only [ClientLoop.queued, ← List.append_assoc, List.mem_append, List.mem_replicate] at hqueued ⊢
      simpa using hqueued
    owned := fun _ hopen => absurd List.mem_cons_self hopen
    orphan := fun horphan => by
      rw [horphaned] at horphan
      contradiction }

/-- Until its close callback a connection that has its client, or has lost it, is open. -/
theorem isOpen (h : s.Core) (hkept : s.connection_ = true ∨ s.orphaned = true)
    (hnone : .handleClose ∉ s.stack) : s.io.conn.isOpen ∧ s.io.Settled := by
  rcases hkept with hconnection | horphaned
  · exact h.owned hconnection hnone
  · obtain ⟨-, hstate, hsettled⟩ := h.orphan horphaned
    exact ⟨.inr hstate, hsettled⟩

/-- `connectDestroyed` is on its way to a connection that had its client to the end. -/
theorem released (h : s.Core) (hway : .connectDestroyed ∈ s.queued ∨ .connectDestroyed ∈ s.stack) :
    ¬ (s.connection_ = true ∨ s.orphaned = true) :=
  fun hkept => hway.elim (h.lasting hkept).1 (h.lasting hkept).2

/-- The client gets its connection. -/
theorem newConnection (h : s.Core) (halive : s.alive = true) (hstate : s.io.conn.state = .kConnecting)
    (hx : s.io.connectEstablished = .ok x) :
    (({ s with connection_ := true, stack := [.newConnection] } : ClientLoop).perform x).Core := by
  obtain ⟨hsettled, -, hnone⟩ := h.fresh hstate
  obtain ⟨hkeeps, hopen⟩ := Io.connectEstablished_keeps h.sound hstate hx
  have hqueued : s.queued = [] := by
    rw [references, holders] at hnone
    exact List.length_eq_zero_iff.mp (by omega)
  simp only [ClientLoop.queued, List.append_eq_nil_iff] at hqueued
  rw [perform_of_adds (s := { s with connection_ := true, stack := [.newConnection] })
    (Io.connectEstablished_adds hx)]
  exact { h with
    sound := hkeeps.moves.sound
    alive := fun _ => halive
    fresh := fun hnew => absurd hnew (Io.ne_of_isOpen hopen).1
    closing := by simp
    top := by simp
    lasting := by simp [ClientLoop.queued, hqueued]
    owned := fun _ _ => ⟨hopen, hkeeps.settled hsettled⟩
    orphan := fun horphaned => absurd (h.gone horphaned) (by simp [halive]) }

/-- The read half of an event, which does not close an orphan. -/
theorem event {r : ReadResult} {revents : Mask} (h : s.Core) (hstack : s.stack = [])
    (hstrong : s.strong = true) (hlegal : (ConnCall.handleRead r).legal s.io = true)
    (hx : s.io.handleEventRead revents r = .ok x)
    (horphan : s.orphaned = true → eventCloses revents r = false) :
    (({ s with active := none, stack := [.handleEvent revents] } : ClientLoop).perform x).Core := by
  have hbegun : s.io.conn.state ≠ .kConnecting := fun hstate => by
    obtain ⟨-, hconnection, hnone⟩ := h.fresh hstate
    rcases strong_iff.mp hstrong with hconn | hreferences
    · simp [hconn] at hconnection
    · omega
  have hnone : .handleClose ∉ s.stack := by simp [hstack]
  have hbase : ({ s with active := none, stack := [.handleEvent revents] } : ClientLoop).Core :=
    { h.push (f := .handleEvent revents) hbegun hstack (by simp) (by simp) with }
  obtain ⟨hmoves, hsettled⟩ := Io.handleEventRead_keeps h.sound hlegal hx
  have houtcome := Io.handleEventRead_outcome h.sound hlegal hx
  split at houtcome
  · rename_i hclose
    refine hbase.closes hmoves houtcome (by simp) (Bool.eq_false_iff.mpr fun horphaned => ?_)
    rw [horphan horphaned] at hclose
    contradiction
  · obtain ⟨hadds, hstate⟩ := houtcome
    refine hbase.goesOn hbegun hmoves hadds (fun hkept => ?_) fun _ => hstate
    have hopen := (h.isOpen hkept hnone).1
    exact ⟨⟨hmoves, hsettled fun _ => hopen⟩, (TcpConnection.isOpen_congr hstate).mpr⟩

/-- The close callback reaches the client. -/
theorem closed (h : s.Core) (hstack : s.stack = .handleClose :: rest) : ({ s with
    stack := rest
    connection_ := false
    pendingFunctors := s.pendingFunctors ++ [.connectDestroyed] } : ClientLoop).Core := by
  have hmem : .handleClose ∈ s.stack := hstack ▸ List.mem_cons_self
  have hnone : .handleClose ∉ rest := by
    have htop := h.top
    rwa [hstack] at htop
  have horphaned (horphaned : s.orphaned = true) : False := (h.orphan horphaned).1 hmem
  exact { h with
    alive := nofun
    fresh := fun hstate => absurd hstate (h.begun_of_stack hstack)
    closing := fun hclose => absurd hclose hnone
    top := fun hclose => hnone (List.mem_of_mem_tail hclose)
    lasting := fun hkept => (horphaned (hkept.resolve_left nofun)).elim
    owned := nofun
    orphan := fun hlost => (horphaned hlost).elim }

/-- A call of user code. -/
theorem call {call : ConnCall} (h : s.Core) (hreaches : s.reaches = true) (huser : call.byUser = true)
    (hx : callStep s.io call = some x) : (s.perform x).Core := by
  have hbegun := h.begun_of_reaches hreaches
  have hkeeps := Io.callStep_keeps h.sound huser hx
  rcases Io.callStep_outcome h.sound huser hx with ⟨hstate, hcloses⟩ | ⟨queued, hadds, hstays⟩
  · refine h.closes hkeeps.moves hcloses (fun hclose => ?_) (Bool.eq_false_iff.mpr fun horphaned => ?_)
    · exact absurd (hstate.symm.trans (h.closing hclose)) (by simp)
    · exact absurd (hstate.symm.trans (h.orphan horphaned).2.1) (by simp)
  · refine h.goesOn hbegun hkeeps.moves hadds (fun _ => ⟨hkeeps, hstays⟩) fun horphaned => ?_
    obtain ⟨input, rfl⟩ := Io.callStep_idle huser (by simp [(h.orphan horphaned).2.1]) hx
    rfl

/-- The destructor of the client, outside the close callback. -/
theorem destroyClient (h : s.Core) (halive : s.alive = true) (hconnection : s.connection_ = true)
    (hnone : .handleClose ∉ s.stack) : ({ s.perform s.io.shutdown with
      alive := false
      connection_ := false
      orphaned := true } : ClientLoop).Core := by
  obtain ⟨hopen, hsettled⟩ := h.owned hconnection hnone
  obtain ⟨hadds, hstate⟩ := s.io.shutdown_adds
  have hkeeps := Io.shutdown_keeps h.sound
  have hcore : (s.perform s.io.shutdown).Core := by
    refine h.goesOn (Io.ne_of_isOpen hopen).1 hkeeps.moves hadds (fun _ => hkeeps) fun horphaned => ?_
    exact absurd (h.gone horphaned) (by simp [halive])
  exact { hcore with
    alive := nofun
    gone := fun _ => rfl
    fresh := fun hnew => absurd ((hstate hopen).symm.trans hnew) (by simp)
    lasting := fun _ => hcore.lasting (.inl hconnection)
    owned := nofun
    orphan := fun _ => by
      refine ⟨?_, hstate hopen, hkeeps.settled hsettled⟩
      rw [perform_of_adds hadds]
      exact hnone }

/-- `connectDestroyed` notifies a connection that is still connected. -/
theorem destroyNotify {functors : List ClientFunctor} (h : s.Core)
    (hphase : s.phase = .callingPendingFunctors) (hstack : s.stack = [])
    (hfunctors : s.functors = .connectDestroyed :: functors) (hstate : s.io.conn.state = .kConnected)
    (hx : s.io.notifyDestroyed = .ok x) : (({ s with
      called := s.called ++ [.connectDestroyed]
      functors := functors
      stack := .connectDestroyed :: s.stack } : ClientLoop).perform x).Core := by
  have hreleased := h.released (.inl (by simp [queued, hfunctors]))
  have hbegun : s.io.conn.state ≠ .kConnecting := by simp [hstate]
  have hbase := (h.advance hphase hfunctors).push (f := .connectDestroyed) hbegun hstack (by simp)
    fun hkept => absurd hkept hreleased
  rw [hstack]
  exact hbase.goesOn hbegun (Io.notifyDestroyed_keeps h.sound hstate hx).1.moves
    (Io.notifyDestroyed_adds hstate hx) (fun hkept => absurd hkept hreleased)
    fun horphaned => absurd (.inr horphaned) hreleased

/-- `connectDestroyed` removes the channel of a connection that is down. -/
theorem destroy {functors : List ClientFunctor} (h : s.Core)
    (hphase : s.phase = .callingPendingFunctors)
    (hfunctors : s.functors = .connectDestroyed :: functors)
    (hx : s.io.onChannel Channel.remove = .ok x) : (({ s with
      called := s.called ++ [.connectDestroyed]
      functors := functors } : ClientLoop).perform x).Core := by
  have hreleased := h.released (.inl (by simp [queued, hfunctors]))
  obtain ⟨hmoves, hstate, heffects⟩ := Io.remove_moves h.sound hx
  exact (h.advance hphase hfunctors).goesOn (h.begun (references_of_functors hfunctors)) hmoves
    (.of_eq heffects) (fun hkept => absurd hkept hreleased) fun _ => hstate

/-- `doPendingFunctors` takes the vector and drops nothing. -/
theorem queued_doPendingFunctors (h : s.Core) (hphase : s.phase = .dispatching) : ({ s with
    phase := .callingPendingFunctors
    functors := s.pendingFunctors
    pendingFunctors := [] } : ClientLoop).queued = s.queued := by
  obtain ⟨hcalled, hfunctors⟩ := h.emptied (by simp [hphase])
  simp [queued, hcalled, hfunctors]

/-- `doPendingFunctors` takes the vector. -/
theorem doPendingFunctors (h : s.Core) (hphase : s.phase = .dispatching) : ({ s with
    phase := .callingPendingFunctors
    functors := s.pendingFunctors
    pendingFunctors := [] } : ClientLoop).Core := by
  have hqueued := h.queued_doPendingFunctors hphase
  exact { h with
    fresh := fun hstate => by
      rw [references, holders, hqueued]
      exact h.fresh hstate
    lasting := fun hkept => by
      rw [hqueued]
      exact h.lasting hkept
    emptied := nofun }

/-- `doPendingFunctors` drops the vector. -/
theorem loopAgain (h : s.Core) (hfunctors : s.functors = []) :
    ({ s with phase := .polling, called := [] } : ClientLoop).Core :=
  { h with
    fresh := fun hstate => by
      obtain ⟨hsettled, hconnection, hnone⟩ := h.fresh hstate
      refine ⟨hsettled, hconnection, ?_⟩
      simp only [references, holders, queued, List.length_append, List.length_nil] at hnone ⊢
      omega
    lasting := fun hkept => by
      obtain ⟨hqueued, hstack⟩ := h.lasting hkept
      simp only [queued, List.mem_append, not_or] at hqueued
      simpa [queued, hqueued] using hstack
    emptied := fun _ => ⟨rfl, hfunctors⟩ }

end Core

/-- Nothing brings a connection to its close callback without its client: the destructor does not run in
the down notification, and behind it no event closes the connection. -/
def Unclosed (s : ClientLoop) : ClientLoopLabel → Prop
  | .destroyClient => s.connection_ = true → ¬ s.callsClient
  | .event r => s.orphaned = true → ∀ revents ∈ s.active, eventCloses revents r = false
  | _ => True

/-- Another reference is there when the client drops its own, and behind the destructor whenever a
reference is dropped: by user code, by a function that returns, or with the vector of functors. -/
def Held (s : ClientLoop) : ClientLoopLabel → Prop
  | .destroyClient => s.connection_ = true → 0 < s.references
  | .release => s.orphaned = true → 1 < s.references
  | .resume w => s.orphaned = true → 1 < s.references + (s.queuesCallback w).toNat
  | .loopAgain => s.orphaned = true → s.called.length < s.references
  | _ => True

/-- The step keeps a connection that loses its client. -/
def KeepsOrphan (s : ClientLoop) (label : ClientLoopLabel) : Prop := s.Unclosed label ∧ s.Held label

/-- A connection whose client was destroyed keeps a reference while it is registered, and does not call
the client. -/
structure SurvivesClient (s : ClientLoop) : Prop where
  unregistered : s.orphaned = true → s.strong = false → s.unregistered
  spared : s.orphaned = true → ¬ s.callsClient

instance : DecidablePred SurvivesClient := fun s =>
  decidable_of_iff ((s.orphaned = true → s.strong = false → s.unregistered) ∧
      (s.orphaned = true → ¬ s.callsClient))
    ⟨fun h => ⟨h.1, h.2⟩, fun h => ⟨h.unregistered, h.spared⟩⟩

variable {label : ClientLoopLabel}

/-- The close callback is the uppermost function or none. -/
theorem Core.not_mem_of_not_callsClient (h : s.Core) (hcalls : ¬ s.callsClient) :
    .handleClose ∉ s.stack := by
  have htop := h.top
  cases hstack : s.stack with
  | nil => exact List.not_mem_nil
  | cons f rest =>
    rw [hstack] at htop
    rintro (_ | ⟨_, hclose⟩)
    · exact hcalls (by rw [callsClient, hstack, List.head?_cons])
    · exact htop hclose

/-- A step that does not close a connection without its client keeps the invariant. -/
theorem Core.step (h : s.Core) (hstep : s.Step label s') (hclosed : s.Unclosed label) : s'.Core := by
  cases hstep with
  | newConnection hstack halive hstate hx => exact h.newConnection halive hstate hx
  | poll hphase => exact { h with emptied := fun _ => h.emptied (by simp [hphase]) }
  | event hstack hactive hstrong hlegal hx =>
    exact h.event hstack hstrong hlegal hx fun horphaned => hclosed horphaned _ hactive
  | returned hstack hf => exact h.pop hstack (by rcases hf with rfl | rfl <;> simp)
  | eventWrite hstack hfits hx =>
    have hkeeps := Io.handleEventWrite_keeps h.sound hfits hx
    obtain ⟨hadds, hstate⟩ := Io.handleEventWrite_goesOn h.sound hfits hx
    exact (h.pop hstack (by simp)).goesOn (h.begun_of_stack hstack) hkeeps.moves hadds
      (fun _ => hkeeps) fun _ => hstate
  | closed hstack => exact h.closed hstack
  | destroyed hstack hx =>
    have hreleased := h.released (.inr (hstack ▸ List.mem_cons_self))
    obtain ⟨hmoves, hstate, heffects⟩ := Io.remove_moves h.sound hx
    exact (h.pop hstack (by simp)).goesOn (h.begun_of_stack hstack) hmoves (.of_eq heffects)
      (fun hkept => absurd hkept hreleased) fun _ => hstate
  | doPendingFunctors hphase => exact h.doPendingFunctors hphase
  | destroyNotify hphase hstack hfunctors hstate hx =>
    exact h.destroyNotify hphase hstack hfunctors hstate hx
  | destroy hphase hfunctors hx => exact h.destroy hphase hfunctors hx
  | callback hphase hstack hfunctors =>
    exact (h.advance hphase hfunctors).push (h.begun (references_of_functors hfunctors)) hstack
      (by simp) (by simp)
  | loopAgain hfunctors => exact h.loopAgain hfunctors
  | others hsame =>
    exact { h with
      sound := ⟨h.sound.output, h.sound.input⟩
      fresh := fun hstate => (h.fresh hstate).imp_left (·.repoll hsame)
      owned := fun hconnection hnone => (h.owned hconnection hnone).imp_right (·.repoll hsame)
      orphan := fun horphaned =>
        (h.orphan horphaned).imp_right fun hrest => hrest.imp_right (·.repoll hsame) }
  | call hreaches huser hx => exact h.call hreaches huser hx
  | take hreaches =>
    exact { h with fresh := fun hstate => absurd hstate (h.begun_of_reaches hreaches) }
  | release hpointers =>
    exact { h with
      fresh := fun hstate => by
        have hnone := (h.fresh hstate).2.2
        rw [references] at hnone
        omega }
  | destroyClient halive hconnection =>
    exact h.destroyClient halive hconnection (h.not_mem_of_not_callsClient (hclosed hconnection))
  | destroyIdle hconnection =>
    exact { h with
      alive := fun hkept => by
        rw [hconnection] at hkept
        contradiction
      gone := fun _ => rfl }

/-- A step that drops no reference keeps one of an orphan. -/
theorem kept_of_le (hkept : s.orphaned = true → 0 < s.references) (hsame : s'.orphaned = s.orphaned)
    (hle : s.references ≤ s'.references) : s'.orphaned = true → 0 < s'.references :=
  fun horphaned => (hkept (hsame ▸ horphaned)).trans_le hle

/-- A step keeps a reference of an orphan exactly when it is held. -/
theorem Core.held_iff (h : s.Core) (hkept : s.orphaned = true → 0 < s.references)
    (hstep : s.Step label s') : (s'.orphaned = true → 0 < s'.references) ↔ s.Held label := by
  cases hstep with
  | newConnection hstack halive =>
    exact iff_of_true (fun horphaned => absurd (h.gone horphaned) (by simp [halive])) trivial
  | poll | others => exact iff_of_true hkept trivial
  | event hstack hactive hstrong hlegal hx =>
    refine iff_of_true (fun _ => ?_) trivial
    refine Nat.lt_of_lt_of_le ?_ (references_le_perform _)
    rw [references_of_stack rfl]
    omega
  | returned hstack hf =>
    refine imp_congr_right fun _ => ?_
    have hqueues (w : WriteResult) : s.queuesCallback w = false := by
      rcases hf with rfl | rfl <;> simp [queuesCallback, hstack]
    rw [hqueues, references_of_stack hstack, Bool.toNat_false]
    omega
  | @eventWrite _ _ rest _ hstack hfits hx =>
    refine imp_congr_right fun _ => ?_
    have hadds := (Io.handleEventWrite_goesOn h.sound hfits hx).1
    have hreferences := references_perform (s := { s with stack := rest }) hadds
    have hpop := references_of_stack hstack
    simp only [queuesCallback, hstack, List.head?_cons]
    omega
  | closed hstack =>
    have hlost (horphaned : s.orphaned = true) : False :=
      (h.orphan horphaned).1 (hstack ▸ List.mem_cons_self)
    exact iff_of_true (fun horphaned => (hlost horphaned).elim) fun horphaned => (hlost horphaned).elim
  | destroyed hstack hx =>
    have hreleased := h.released (.inr (hstack ▸ List.mem_cons_self))
    exact iff_of_true (fun horphaned => absurd (.inr horphaned) hreleased)
      fun horphaned => absurd (.inr horphaned) hreleased
  | doPendingFunctors hphase =>
    refine iff_of_true (kept_of_le hkept rfl ?_) trivial
    simp only [references, holders, h.queued_doPendingFunctors hphase, le_refl]
  | destroyNotify hphase hstack hfunctors hstate hx =>
    refine iff_of_true (fun _ => Nat.lt_of_lt_of_le ?_ (references_le_perform _)) trivial
    rw [references_of_stack rfl]
    omega
  | destroy hphase hfunctors hx =>
    have hreleased := h.released (.inl (by simp [queued, hfunctors]))
    exact iff_of_true (fun horphaned => absurd (.inr horphaned) hreleased) trivial
  | callback hphase hstack hfunctors =>
    refine iff_of_true (fun _ => ?_) trivial
    rw [references_of_stack rfl]
    omega
  | loopAgain hfunctors hstack =>
    refine imp_congr_right fun _ => ?_
    simp only [references, holders, queued, List.length_append, List.length_nil]
    omega
  | call => exact iff_of_true (kept_of_le hkept rfl (references_le_perform _)) trivial
  | take hreaches =>
    refine iff_of_true (kept_of_le hkept rfl ?_) trivial
    simp only [references, holders, queued]
    omega
  | release hpointers =>
    refine imp_congr_right fun _ => ?_
    simp only [references, holders, queued]
    omega
  | destroyClient halive hconnection =>
    have hreferences := references_perform s.io.shutdown_adds.1
    refine ⟨fun hheld _ => ?_, fun hheld _ => ?_⟩
    · have hpos : 0 < (s.perform s.io.shutdown).references := hheld rfl
      omega
    · exact (hheld hconnection).trans_le (references_le_perform _)
  | destroyIdle hconnection =>
    exact iff_of_true hkept fun hkeeps => absurd (hconnection.symm.trans hkeeps) (by simp)

/-- A step to a connection that survives closes none without its client. -/
theorem Core.unclosed (h : s.Core) (hstep : s.Step label s') (hsurvives : s'.SurvivesClient) :
    s.Unclosed label := by
  cases hstep with
  | destroyClient halive hconnection =>
    intro _ hcalls
    refine hsurvives.spared rfl ?_
    have hadds := s.io.shutdown_adds.1
    change (s.perform s.io.shutdown).stack.head? = _
    rw [perform_of_adds hadds]
    exact hcalls
  | event hstack hactive hstrong hlegal hx =>
    intro horphaned revents hmem
    obtain rfl := Option.some.inj (hactive.symm.trans hmem)
    by_contra hclose
    have houtcome := Io.handleEventRead_outcome h.sound hlegal hx
    rw [if_pos (by simpa using hclose)] at houtcome
    obtain ⟨queued, hadds, -⟩ := houtcome
    refine hsurvives.spared horphaned ?_
    rw [perform_of_adds (s := { s with active := none, stack := [.handleEvent _] }) hadds]
    rfl
  | destroyIdle hconnection => exact fun hkeeps => absurd (hconnection.symm.trans hkeeps) (by simp)
  | _ => trivial

/-- An open connection is registered. -/
theorem not_unregistered (hopen : s.io.conn.isOpen) (hsettled : s.io.Settled) : ¬ s.unregistered := by
  have htracks := hsettled.tracks
  rw [EpollPoller.Tracks, hsettled.added_iff.mpr hopen] at htracks
  rintro ⟨hnone, -⟩
  rw [htracks.1] at hnone
  contradiction

/-- A connection survives its client as long as it has a reference. -/
theorem Core.survivesClient_iff (h : s.Core) :
    s.SurvivesClient ↔ (s.orphaned = true → 0 < s.references) := by
  have hstrong (horphaned : s.orphaned = true) : s.strong = true ↔ 0 < s.references := by
    have hconnection : s.connection_ ≠ true := fun hconnection => by
      have halive := h.alive hconnection
      rw [h.gone horphaned] at halive
      contradiction
    rw [strong_iff]
    exact or_iff_right hconnection
  refine ⟨fun hsurvives horphaned => ?_,
    fun hkept => ⟨fun horphaned hlost => ?_, fun horphaned hcalls => ?_⟩⟩
  · rw [← hstrong horphaned, ← Bool.not_eq_false]
    intro hlost
    obtain ⟨hopen, hsettled⟩ := h.isOpen (.inr horphaned) (h.orphan horphaned).1
    exact not_unregistered hopen hsettled (hsurvives.unregistered horphaned hlost)
  · rw [(hstrong horphaned).mpr (hkept horphaned)] at hlost
    contradiction
  · exact (h.orphan horphaned).1 (List.mem_of_mem_head? hcalls)

end ClientLoop

/-- The connection of a new client. -/
theorem Opening.handedOver_core (o : Opening) : o.handedOver.Core where
  sound := ⟨Buffer.initial_inv, Buffer.initial_inv⟩
  alive := nofun
  gone := nofun
  fresh := fun _ => ⟨o.constructed_settled, rfl, rfl⟩
  closing := nofun
  top := List.not_mem_nil
  lasting := by simp [handedOver]
  owned := nofun
  orphan := nofun
  emptied := fun _ => ⟨rfl, rfl⟩

/-- Destroying a client is safe for its connection exactly when every step keeps the orphan. -/
theorem orphans_survive (o : Opening) (labels : List ClientLoopLabel) :
    Everywhere ClientLoop.step ClientLoop.SurvivesClient o.handedOver labels ↔
      Along ClientLoop.step ClientLoop.KeepsOrphan o.handedOver labels := by
  refine everywhere_iff_along (I := fun s : ClientLoop => s.Core ∧ s.SurvivesClient) (fun s h => h.2)
    (fun s label s' h hkeeps hs => ?_) (fun s label s' h hbreaks hs hsurvives => hbreaks ?_) labels ?_
  · have hstep := ClientLoop.step_spec hs
    have hcore := h.1.step hstep hkeeps.1
    have hkept := h.1.survivesClient_iff.mp h.2
    exact ⟨hcore, hcore.survivesClient_iff.mpr ((h.1.held_iff hkept hstep).mpr hkeeps.2)⟩
  · have hstep := ClientLoop.step_spec hs
    have hclosed := h.1.unclosed hstep hsurvives
    have hkept := h.1.survivesClient_iff.mp h.2
    have hkept' := (h.1.step hstep hclosed).survivesClient_iff.mp hsurvives
    exact ⟨hclosed, (h.1.held_iff hkept hstep).mp hkept'⟩
  · exact ⟨o.handedOver_core, o.handedOver_core.survivesClient_iff.mpr nofun⟩

/-- The client is destroyed while only the client has the connection. -/
def ClientLoop.onlyOwner : List ClientLoopLabel := [.newConnection, .resume (.accepted 0), .destroyClient]

/-- User code keeps the connection of the destroyed client, and the peer hangs up. -/
def ClientLoop.laterHangup : List ClientLoopLabel :=
  [.newConnection, .take, .resume (.accepted 0), .destroyClient, .doPendingFunctors, .loopAgain,
    .poll (some EPOLLHUP), .event (.failed 0)]

/-- In the first run a registered connection is destroyed, in the second the destroyed client is called. -/
theorem orphan_does_not_survive :
    ¬ Everywhere ClientLoop.step ClientLoop.SurvivesClient Opening.fresh.handedOver
        ClientLoop.onlyOwner ∧
      ¬ Everywhere ClientLoop.step ClientLoop.SurvivesClient Opening.fresh.handedOver
        ClientLoop.laterHangup := by
  decide +kernel

end CcMuduo
