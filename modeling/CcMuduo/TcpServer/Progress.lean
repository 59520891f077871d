import CcMuduo.TcpConnection.Completion
import CcMuduo.TcpServer.Ownership

/-!
# No loop of the server gets stuck

While user code keeps no reference, every loop can take its next step, whatever the kernel answers: no
report to a poller is refused, no event and no functor finds its connection gone. The one thing that ends
a loop is a vector that would have to grow beyond its maximal size.
-/

namespace CcMuduo

open Foundation

/-- What the kernel and the environment answer in one step of a loop. -/
structure TurnAnswer where
  read : ReadResult
  write : WriteResult
  msg : Message
  log : ErrnoTrail

namespace ServerSystem

variable {L : Type*} [DecidableEq L] (s : ServerSystem L) (l : L) (a : TurnAnswer)

/-- The next step of a loop, when a poll reports nothing. -/
def turn : ServerLabel L :=
  match s.stack l, s.phase l, s.activeChannels l, s.functors l with
  | _ :: _, _, _, _ => .resume l a.write
  | [], .polling, _, _ => .poll l []
  | [], .dispatching, [], _ => .doPendingFunctors l
  | [], .dispatching, _ :: _, _ => .event l a.read
  | [], .callingPendingFunctors, _, [] => .loopAgain l
  | [], .callingPendingFunctors, _, _ :: _ => .functor l a.msg a.write a.log

/-- The kernel takes and stores no more than it is offered, and a buffer can take what was read. -/
structure Fits : Prop where
  write : ∀ c revents, (s.stack l).head? = some (.handleEvent c revents) →
    a.write.fits (s.conns c).outputBuffer.readableBytes = true
  read : ∀ c revents, (s.activeChannels l).head? = some (c, revents) →
    a.read.fits (s.conns c).inputBuffer.readOffer = true ∧ (s.conns c).inputBuffer.HoldsRead a.read

variable {s l a}

omit [DecidableEq L] in
/-- What fits is legal. -/
theorem legal_of_fits {c : ℕ} {r : ReadResult}
    (h : r.fits (s.conns c).inputBuffer.readOffer = true) :
    (ConnCall.handleRead r).legal (s.io c) = true := by
  cases r with
  | failed errno => rfl
  | received bytes => exact h

/-- A function of one connection that completes. -/
theorem exec_isSome {c : ℕ} {f : Io → Except Fault Io} (h : ∃ x, f (s.io c) = .ok x) :
    (s.exec c f).isSome = true := by
  obtain ⟨x, hx⟩ := h
  rw [exec, hx]
  rfl

/-- The end of `connectDestroyed` is possible. -/
theorem Unshared.finishDestroy_isSome (h : s.Unshared) {t : ServerSystem L} {c : ℕ}
    (hio : t.io c = s.io c) : (t.finishDestroy c).isSome = true := by
  have hremove : ∃ x, (t.io c).onChannel Channel.remove = .ok x := hio ▸ (h.settled c).remove
  rw [ServerSystem.finishDestroy, Option.isSome_map]
  exact exec_isSome hremove

/-- The return of a callback is possible. -/
theorem Unshared.resume_isSome (h : s.Unshared) (hfits : s.Fits l a) (hstack : s.stack l ≠ []) :
    (s.resume l a.write).isSome = true := by
  obtain ⟨f, rest, hcons⟩ := List.exists_cons_of_ne_nil hstack
  have hhead : (s.stack l).head? = some f := by rw [hcons]; rfl
  rw [ServerSystem.resume, hhead, Option.bind_some]
  cases f with
  | newConnection c | connectEstablished c | handleClose c | callback c => rfl
  | handleEvent c revents =>
    dsimp only
    rw [if_pos (hfits.write c revents hhead)]
    exact exec_isSome (Io.handleEventWrite_completes (h.settled c).tracks revents a.write)
  | connectDestroyed c => exact h.finishDestroy_isSome rfl

/-- The next event can be dispatched: its connection is there. -/
theorem Unshared.event_isSome (h : s.Unshared) (hbooked : s.Booked) (hfits : s.Fits l a)
    (hphase : s.phase l = .dispatching) (hstack : s.stack l = []) (hactive : s.activeChannels l ≠ []) :
    (s.event l a.read).isSome = true := by
  obtain ⟨⟨c, revents⟩, rest, hcons⟩ := List.exists_cons_of_ne_nil hactive
  have hmem : (c, revents) ∈ s.activeChannels l := hcons ▸ List.mem_cons_self
  obtain ⟨hread, hhold⟩ := hfits.read c revents (by rw [hcons]; rfl)
  obtain ⟨-, hopen, -⟩ := h.active l _ hmem
  have hbegun := (hbooked.records.active l _ hmem).2
  have hstrong : s.strong c = true := hbooked.records.strong (hbooked.records.inserted_of_begun hbegun)
    (h.not_destroyed (Io.ne_of_isOpen (s := s.io c) hopen).2)
  simp only [ServerSystem.event, hphase, hstack, hcons, hstrong, legal_of_fits hread, and_self, if_true]
  exact exec_isSome (Io.handleEventRead_completes (s := s.io c) (h.settled c).tracks (h.settled c).input
    hread hhold revents)

/-- The next functor can run: it is not a raw one. -/
theorem Unshared.functor_isSome (h : s.Unshared) (hphase : s.phase l = .callingPendingFunctors)
    (hstack : s.stack l = []) (hfunctors : s.functors l ≠ []) :
    (s.functor l a.msg a.write a.log).isSome = true := by
  obtain ⟨f, rest, hcons⟩ := List.exists_cons_of_ne_nil hfunctors
  have hhead : (s.functors l).head? = some f := by rw [hcons]; rfl
  obtain ⟨hraw, hleaves⟩ := h.waiting l f (mem_queued_of_head hhead)
  simp only [ServerSystem.functor, hphase, hstack, hcons]
  cases f with
  | connectEstablished c => exact exec_isSome (Io.connectEstablished_completes (h.settled c).tracks)
  | removeConnectionInLoop c | callback c => rfl
  | connectDestroyed c =>
    have hdown : (s.conns c).state = .kDisconnected := hleaves rfl
    have hne : ((s.popFunctor l).conns c).state ≠ .kConnected := by
      change (s.conns c).state ≠ _
      rw [hdown]
      decide
    simp only [runFunctor, ServerSystem.connectDestroyed, if_neg hne]
    exact h.finishDestroy_isSome rfl
  | sendInLoop c | shutdownInLoop c => simp [ServerFunctor.raw] at hraw

/-- Every loop can take its next step. -/
theorem Unshared.turn_isSome (h : s.Unshared) (hbooked : s.Booked) (hfits : s.Fits l a) :
    (s.step (s.turn l a)).isSome = true := by
  unfold ServerSystem.turn
  split
  · rename_i hstack
    exact h.resume_isSome hfits (by simp [hstack])
  · rename_i hstack hphase
    simp [ServerSystem.step, ServerSystem.poll, hphase, hstack]
  · rename_i hstack hphase hactive
    simp [ServerSystem.step, ServerSystem.doPendingFunctors, hphase, hactive, hstack]
  · rename_i hstack hphase hactive
    exact h.event_isSome hbooked hfits hphase hstack (by simp [hactive])
  · rename_i hstack hphase hfunctors
    simp [ServerSystem.step, ServerSystem.loopAgain, hphase, hfunctors, hstack]
  · rename_i hstack hphase hfunctors
    exact h.functor_isSome hphase hstack (by simp [hfunctors])

end ServerSystem

/-- In every state of a run of a server in which user code keeps no reference, every loop can take its
next step, whatever the kernel answers, as long as a buffer can take what is read. -/
theorem loops_goOn {L : Type*} [DecidableEq L] (d : Deployment L) (labels : List (ServerLabel L))
    (h : Along ServerSystem.step (fun _ label => label.takesNothing = true) d.listening labels) :
    Everywhere ServerSystem.step
      (fun s => ∀ l a, s.Fits l a → (s.step (s.turn l a)).isSome = true) d.listening labels :=
  everywhere_of_along (I := fun s => s.Booked ∧ s.Unshared)
    (fun _ hs l a hfits => hs.2.turn_isSome (l := l) (a := a) hs.1 hfits)
    (fun _ _ _ hs hnothing hstep => ⟨hs.1.step hstep, hs.2.step hs.1 hnothing hstep⟩)
    ⟨d.listening_booked, d.listening_unshared⟩ h

/-- A connection is accepted and hung up, with the loop able to go on at each point. -/
theorem loops_goOn_hangup :
    let labels : List (ServerLabel Unit) := [.poll () [], .accept, .resume () (.accepted 0),
      .resume () (.accepted 0), .doPendingFunctors (), .loopAgain (), .poll () [(1, EPOLLHUP)],
      .event () (.failed 0), .resume () (.accepted 0), .resume () (.accepted 0)]
    (run ServerSystem.step Deployment.loopback.listening labels).isSome = true ∧
      Everywhere ServerSystem.step
        (fun s => ∀ l a, s.Fits l a → (s.step (s.turn l a)).isSome = true)
        Deployment.loopback.listening labels :=
  ⟨by decide +kernel, loops_goOn _ _ (by decide +kernel)⟩

end CcMuduo
