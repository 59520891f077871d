import CcMuduo.Connector.Step

/-!
# What the connector leaves alone

`Framing` lists the changes that the calls of the connector are made of, and a relation that allows them
all is kept by every call. The first use: no call but `restart` changes whether a connection is wanted,
and no call queues `startInLoop` or `stopInLoop`, which come from `start` and `stop` only.
-/

namespace CcMuduo

open Foundation

/-- What every call of the connector but `restart` leaves alone. -/
structure ConnectorLoop.Frame (s s' : ConnectorLoop) : Prop where
  connect : s'.connect_ = s.connect_
  starts : s'.starts = s.starts
  stopping : s'.stopping = s.stopping
  waiting : ∀ e ∈ s'.loop.waiting, e.2 = .startInLoop ∨ e.2 = .stopInLoop → e ∈ s.loop.waiting

namespace ConnectorLoop

instance : Std.Refl Frame := ⟨fun _ => ⟨rfl, rfl, rfl, fun _ he _ => he⟩⟩

instance : IsTrans ConnectorLoop Frame :=
  ⟨fun _ _ _ h h' => ⟨h'.connect.trans h.connect, h'.starts.trans h.starts,
    h'.stopping.trans h.stopping, fun e he hkind => h.waiting e (h'.waiting e he hkind) hkind⟩⟩

/-- A change of other fields is in the frame. -/
theorem Frame.of_same {s s' : ConnectorLoop} (hconnect : s'.connect_ = s.connect_)
    (hstarts : s'.starts = s.starts) (hstopping : s'.stopping = s.stopping) (hloop : s'.loop = s.loop) :
    s.Frame s' :=
  ⟨hconnect, hstarts, hstopping, fun _ he _ => hloop ▸ he⟩

/-- The relation allows every change that a call of the connector makes. -/
structure Framing (R : ConnectorLoop → ConnectorLoop → Prop) : Prop where
  record : ∀ s action, R s { s with log := action :: s.log }
  queue : ∀ s cb, cb ≠ .startInLoop → cb ≠ .stopInLoop →
    R s { s with loop := s.loop.enqueue s.starts cb }
  polled : ∀ s poller channel, R s { s with poller := poller, channel := channel }
  state : ∀ s state, R s { s with state := state }
  double : ∀ s, R s { s with retryDelayMs := min (s.retryDelayMs * 2) kMaxRetryDelayMs }
  timer : ∀ s delayMs, R s { s with timers := delayMs :: s.timers }
  fault : ∀ s fault, R s { s with fault := fault }

/-- Only the functors of `start` and `stop` matter to the frame. -/
theorem frame_framing : Framing Frame where
  record _ _ := .of_same rfl rfl rfl rfl
  queue s cb hstart hstop := by
    refine ⟨rfl, rfl, rfl, fun e he hkind => ?_⟩
    rw [EventLoop.waiting_enqueue] at he
    refine (List.mem_append.mp he).resolve_right fun hnew => ?_
    obtain rfl := List.mem_singleton.mp hnew
    exact hkind.elim hstart hstop
  polled _ _ _ := .of_same rfl rfl rfl rfl
  state _ _ := .of_same rfl rfl rfl rfl
  double _ := .of_same rfl rfl rfl rfl
  timer _ _ := .of_same rfl rfl rfl rfl
  fault _ _ := .of_same rfl rfl rfl rfl

namespace Framing

variable {R : ConnectorLoop → ConnectorLoop → Prop} [Std.Refl R] [IsTrans ConnectorLoop R]

/-- A call of `epoll_ctl`. -/
theorem epollCtl (h : Framing R) (a : SystemAnswers) (operation : CtlOp) (fd : ℕ) :
    Keeps R (epollCtl a operation fd) := by
  refine .bind (.modify fun s => h.record s _) fun _ => .get_bind fun s => ?_
  split
  · exact Keeps.throw _ s
  · exact Keeps.pure _ s

/-- A call of the poller. -/
theorem onPoller (h : Framing R) (a : SystemAnswers) (operation : Option CtlOp) (c : Channel)
    (call : EpollPoller → Except Fault (EpollPoller × Channel)) :
    Keeps R (onPoller a operation c call) := by
  have hcall : Keeps R (ConnectorLoop.onPoller a none c call) := by
    refine .get_bind fun s => ?_
    split
    · exact h.polled s _ _
    · exact Keeps.throw _ s
  cases operation with
  | none => exact hcall
  | some operation => exact .bind (h.epollCtl a operation c.fd) fun _ => hcall

/-- `removeAndResetChannel`. -/
theorem removeAndResetChannel (h : Framing R) (a : SystemAnswers) :
    Keeps R (removeAndResetChannel a) := by
  refine .get_bind fun s => ?_
  split
  · exact Keeps.throw _ s
  · exact Keeps.bind (h.onPoller a _ _ _) (fun _ => .bind (h.onPoller a _ _ _) fun _ =>
      .bind (.modify fun s => h.queue s _ (by decide) (by decide)) fun _ => .pure _) s

/-- `retry`. -/
theorem retry (h : Framing R) (a : SystemAnswers) (delayMs : ℕ) : Keeps R (retry a delayMs) :=
  .bind (h.removeAndResetChannel a) fun _ => .bind (.modify fun s => h.record s _) fun _ =>
    .bind (.modify h.double) fun _ =>
      .modify fun s => h.queue s _ (fun hcb => nomatch hcb) (fun hcb => nomatch hcb)

/-- `connecting`. -/
theorem connecting (h : Framing R) (a : SystemAnswers) (sockfd : ℕ) :
    Keeps R (connecting a sockfd) := by
  refine .bind (.modify fun s => h.state s _) fun _ => .get_bind fun s => ?_
  split
  · exact Keeps.bind (.throw _) (fun _ => .bind (h.onPoller a _ _ _) fun _ => .pure _) s
  · exact Keeps.bind (h.onPoller a _ _ _) (fun _ => .pure _) s

/-- `connect`. -/
theorem connect (h : Framing R) (a : SystemAnswers) : Keeps R (connect a) := by
  refine .bind (.modify fun s => h.record s _) fun _ => ?_
  split
  · exact .throw _
  · refine .bind (.modify fun s => h.record s _) fun _ => ?_
    split
    · exact h.connecting a _
    · split
      · exact h.retry a _
      · exact .modify fun s => h.record s _

/-- `startInLoop`. -/
theorem startInLoop (h : Framing R) (a : SystemAnswers) : Keeps R (startInLoop a) := by
  refine .get_bind fun s => ?_
  split
  · split
    · exact Keeps.bind (.throw _) (fun _ => h.connect a) s
    · exact h.connect a s
  · split
    · exact Keeps.bind (.throw _) (fun _ => .pure _) s
    · exact Keeps.pure _ s

/-- `stopInLoop`. -/
theorem stopInLoop (h : Framing R) (a : SystemAnswers) : Keeps R (stopInLoop a) := by
  refine .get_bind fun s => ?_
  split
  · exact Keeps.bind (.modify fun s => h.state s _) (fun _ => .bind (h.removeAndResetChannel a) fun _ =>
      .bind (.modify fun s => h.record s _) fun _ => h.retry a _) s
  · exact Keeps.pure _ s

/-- `handleWrite`. -/
theorem handleWrite (h : Framing R) (a : SystemAnswers) : Keeps R (handleWrite a) := by
  refine .get_bind fun s => ?_
  split
  · refine Keeps.bind (h.removeAndResetChannel a) (fun _ => ?_) s
    split
    · exact .bind (.modify fun s => h.record s _) fun _ => h.retry a _
    · refine .bind (.modify fun s => h.state s _) fun _ => ?_
      split
      · exact .modify fun s => h.record s _
      · exact .bind (.modify fun s => h.record s _) fun _ => h.retry a _
  · exact Keeps.pure _ s

/-- `handleError`. -/
theorem handleError (h : Framing R) (a : SystemAnswers) : Keeps R (handleError a) := by
  refine .get_bind fun s => ?_
  split
  · exact Keeps.bind (h.removeAndResetChannel a) (fun _ => h.retry a _) s
  · exact Keeps.pure _ s

/-- The functors of the connector. -/
theorem execute (h : Framing R) (a : SystemAnswers) (functor : ConnectorFunctor) :
    Keeps R (execute a functor) := by
  cases functor with
  | startInLoop => exact h.startInLoop a
  | stopInLoop => exact h.stopInLoop a
  | resetChannel => exact .modify fun s => h.polled s s.poller none
  | insertTimer delayMs => exact .modify fun s => h.timer s delayMs

omit [Std.Refl R] in
/-- Behind a computation. A failure that ends the process changes nothing else. -/
theorem after (h : Framing R) {x : ConnectorM PUnit} (hx : Keeps R x) (s : ConnectorLoop) :
    R s (s.after x) := by
  have hframe := hx s
  unfold ConnectorLoop.after
  revert hframe
  obtain ⟨answer, s'⟩ := exec x s
  intro hframe
  cases answer with
  | ok => exact hframe
  | error fault => exact IsTrans.trans s s' _ hframe (h.fault s' _)

/-- The event of the channel. -/
theorem handleEvent (h : Framing R) (a : SystemAnswers) (revents : Mask) (s : ConnectorLoop) :
    R s (s.after (handleEventWithGuard a revents)) :=
  after_handleEventWithGuard (P := R s) revents (Std.Refl.refl s) (h.fault s _)
    (h.after (h.handleError a) s) fun _ => h.after (h.handleWrite a) s

end Framing

/-- The steps of the loop thread are in the frame. -/
theorem next_frame {s : ConnectorLoop} {m : EventLoop.Move} {loop : EventLoop ℕ ConnectorFunctor}
    (h : s.loop.next m = some loop) (active : Option Mask) :
    s.Frame { s with loop := loop, active := active } :=
  ⟨rfl, rfl, rfl, fun _ he _ => EventLoop.mem_waiting_of_next h he⟩

end ConnectorLoop

end CcMuduo
