import CcMuduo.IoLoop.Invariant
import CcMuduo.TcpServer.Bookkeeping

/-!
# What keeps a connection

The map keeps a connection until `removeConnectionInLoop`, which has put `connectDestroyed` with a
reference of its own into the queue of the connection's loop. So a connection that nothing keeps has been
through `connectDestroyed`, and its channel has left the poller. That it stays out, and that no event of
it waits for dispatch, is where the references of user code come in: without them every function of a
connection runs under a handler of its own event, behind it, or when no event is left.
-/

namespace CcMuduo

open Foundation

/-- Is the functor on the way from the close callback to the end of `connectDestroyed`? -/
def ServerFunctor.leaves : ServerFunctor → Bool
  | .removeConnectionInLoop _ | .connectDestroyed _ => true
  | .connectEstablished _ | .callback _ | .sendInLoop _ | .shutdownInLoop _ => false

/-- Is the function? -/
def ServerFrame.leaves : ServerFrame → Bool
  | .handleClose _ | .connectDestroyed _ => true
  | .newConnection _ | .connectEstablished _ | .handleEvent _ _ | .callback _ => false

/-- The label is not that user code keeps a reference. -/
def ServerLabel.takesNothing {L : Type*} : ServerLabel L → Bool
  | .take _ => false
  | .accept | .poll _ _ | .event _ _ | .resume _ _ | .doPendingFunctors _ | .functor _ _ _ _
  | .loopAgain _ | .call _ _ | .release _ | .otherSend _ | .otherShutdown _ | .otherStore _ _
  | .otherQueue _ => true

namespace Io

variable {s s' : Io}

/-- The write half of an event does nothing to a connection that is down. -/
theorem handleEventWrite_down {revents : Mask} {w : WriteResult} (hsettled : s.Settled)
    (hdown : s.conn.state = .kDisconnected) (h : s.handleEventWrite revents w = .ok s') : s' = s := by
  have hwriting : s.conn.channel.isWriting ≠ true := by
    rw [Channel.isWriting, hsettled.uninterested (not_isOpen_of_down hdown)]
    decide
  unfold handleEventWrite at h
  split at h
  · exact (Except.ok.inj h).symm
  · split at h
    · rw [handleWrite, if_neg hwriting] at h
      exact (Except.ok.inj h).symm
    · exact (Except.ok.inj h).symm

/-- Only a connection that is down has called its close callback. -/
theorem Settled.down_of_closeCallback (h : s.Settled) (hclose : .closeCallback ∈ s.effects) :
    s.conn.state = .kDisconnected := by
  have hcount : 0 < closes s.effects := List.count_pos_iff.mpr hclose
  have hhistory := h.history
  cases hstate : s.conn.state with
  | kDisconnected => rfl
  | kConnecting | kConnected | kDisconnecting =>
    rw [hstate] at hhistory
    have hnone := hhistory.2.2
    omega

end Io

namespace ServerSystem

variable {L : Type*}

/-- No poller knows the channel of the connection, on its own loop. -/
def unregistered (s : ServerSystem L) (c : ℕ) : Prop :=
  (s.io c).poller.channels (s.conns c).channel.fd = none ∧
    (s.io c).poller.interest (s.conns c).channel.fd = none

/-- What holds while user code keeps no reference. -/
structure Unshared (s : ServerSystem L) : Prop where
  pointers : ∀ c, s.pointers c = 0
  settled : ∀ c, (s.io c).Settled
  nodup : ∀ l, ((s.activeChannels l).map Prod.fst).Nodup
  idle : ∀ l, s.phase l ≠ .dispatching → s.activeChannels l = []
  active : ∀ l, ∀ e ∈ s.activeChannels l,
    s.home e.1 = l ∧ (s.conns e.1).isOpen ∧ ∀ f ∈ s.stack l, f.target ≠ e.1
  stacked : ∀ l, ∀ f ∈ s.stack l, f.leaves = true → (s.conns f.target).state = .kDisconnected
  waiting : ∀ l, ∀ f ∈ s.queued l,
    f.raw = false ∧ (f.leaves = true → (s.conns f.target).state = .kDisconnected)
  gone : ∀ c, .destroyed ∈ s.life c → (s.conns c).state = .kDisconnected ∧ s.unregistered c

variable {s t s' : ServerSystem L} {c : ℕ} {l : L} {x : Io}

/-- The references that the records speak of: the map, and behind it `connectDestroyed`. -/
theorem Records.strong (h : s.Records) (hinserted : .inserted ∈ s.life c)
    (hdestroyed : .destroyed ∉ s.life c) : s.strong c = true := by
  by_cases hremoved : .removed ∈ s.life c
  · rcases (h.leaving c hremoved).resolve_left hdestroyed with hqueued | hframe
    · exact strong_of_functor (h.homed c hinserted) (List.mem_append_right _ hqueued)
        (by simp [ServerFunctor.holds, ServerFunctor.raw, ServerFunctor.target])
    · exact strong_of_frame (h.homed c hinserted) hframe rfl
  · exact strong_of_map ((h.map _ _).mpr ⟨rfl, hinserted, hremoved⟩)

/-- An event of a life other than the end of `connectDestroyed`. -/
theorem Unshared.note (h : s.Unshared) {e : LifeEvent} (he : e ≠ .destroyed) (c : ℕ) :
    (s.note c e).Unshared :=
  { h with gone := fun d hd => h.gone d ((mem_note.mp hd).resolve_right fun hd => he hd.2.symm) }

/-- The end of `connectDestroyed`. -/
theorem Unshared.noteDestroyed (h : s.Unshared) (hdown : (s.conns c).state = .kDisconnected)
    (hgone : s.unregistered c) : (s.note c .destroyed).Unshared := by
  refine { h with gone := fun d hd => ?_ }
  rcases mem_note.mp hd with hd | ⟨rfl, -⟩
  · exact h.gone d hd
  · exact ⟨hdown, hgone⟩

/-- The entry of a new connection: it is as settled on its loop as it was on the base loop, because no
poller knows it. -/
theorem Unshared.insert (h : s.Unshared) (hwired : s.Wired) {ioLoop : L} {connName : List Char}
    {server : TcpServer L} (hactive : ∀ l, ∀ e ∈ s.activeChannels l, s.begun e.1)
    (hempty : s.life c = []) : (s.insert ioLoop connName c server).Unshared := by
  have hbegun : ¬ s.begun c := by
    rw [begun, hempty]
    exact List.not_mem_nil
  have hnone (l : L) : (s.poller l).channels (s.conns c).channel.fd = none ∧
      (s.poller l).interest (s.conns c).channel.fd = none := by
    constructor
    all_goals
      by_contra hset
      first
      | exact hbegun (hwired.registered l c (.inr hset)).2
      | exact hbegun (hwired.registered l c (.inl hset)).2
  set t := s.insert ioLoop connName c server
  have hhome {d : ℕ} (hd : d ≠ c) : t.home d = s.home d := Function.update_of_ne hd _ _
  have hio {d : ℕ} (hd : d ≠ c) : t.io d = s.io d := by
    change (⟨s.conns d, s.poller (t.home d), s.log d⟩ : Io) = _
    rw [hhome hd]
    rfl
  refine { h with
    settled := fun d => ?_
    active := fun l e he => ⟨?_, (h.active l e he).2⟩
    gone := fun d hd => ?_ }
  · by_cases hdc : d = c
    · subst hdc
      exact (h.settled d).repoll
        ⟨(hnone _).1.trans (hnone _).1.symm, (hnone _).2.trans (hnone _).2.symm⟩
    · rw [hio hdc]
      exact h.settled d
  · have hne : e.1 ≠ c := by
      rintro rfl
      exact hbegun (hactive l e he)
    exact (hhome hne).trans (h.active l e he).1
  · have hwas : .destroyed ∈ s.life d :=
      (mem_note.mp (show _ ∈ (s.note c .inserted).life d from hd)).resolve_right (by simp)
    have hne : d ≠ c := by
      rintro rfl
      rw [hempty] at hwas
      contradiction
    obtain ⟨hdown, hgone⟩ := h.gone d hwas
    refine ⟨hdown, ?_⟩
    unfold unregistered
    rw [hio hne]
    exact hgone

/-- Functors on their way: each holds its connection, and the connection is down when it leaves. -/
theorem Unshared.requeue (h : s.Unshared) {pending called functors : L → List ServerFunctor}
    (hqueued : ∀ l, ∀ f ∈ functors l ++ pending l, f ∈ s.queued l ∨
      f.raw = false ∧ (f.leaves = true → (s.conns f.target).state = .kDisconnected)) :
    ({ s with
      pendingFunctors := pending
      called := called
      functors := functors } : ServerSystem L).Unshared :=
  { h with waiting := fun l f hf => (hqueued l f hf).elim (h.waiting l f) id }

/-- A connection with a function on the stack has no event that waits. -/
theorem Unshared.free (h : s.Unshared) {f : ServerFrame} (hf : f ∈ s.stack l) (hl : s.home f.target = l) :
    ∀ e ∈ s.activeChannels (s.home f.target), e.1 ≠ f.target := by
  intro e he
  rw [hl] at he
  exact ((h.active l e he).2.2 f hf).symm

/-- Nothing waits while functors run. -/
theorem Unshared.calling (h : s.Unshared) (hphase : s.phase l = .callingPendingFunctors) :
    s.activeChannels l = [] :=
  h.idle l (by simp [hphase])

/-- A connection that is not down has not been through `connectDestroyed`. -/
theorem Unshared.not_destroyed (h : s.Unshared) (hdown : (s.conns c).state ≠ .kDisconnected) :
    .destroyed ∉ s.life c :=
  fun hd => hdown (h.gone c hd).1

/-- A connection has a strong reference from its entry into the map to the end of `connectDestroyed`; and
while it has none, no poller knows its channel and no event of it waits. -/
structure LivesUntilUnregistered (s : ServerSystem L) : Prop where
  strong : ∀ c, .inserted ∈ s.life c → .destroyed ∉ s.life c → s.strong c = true
  unregistered : ∀ c, .inserted ∈ s.life c → s.strong c = false → ∀ l,
    (s.poller l).channels (s.conns c).channel.fd = none ∧
      (s.poller l).interest (s.conns c).channel.fd = none ∧ ∀ e ∈ s.activeChannels l, e.1 ≠ c

/-- A connection without references has been through `connectDestroyed`. -/
theorem Unshared.livesUntilUnregistered (h : s.Unshared) (hbooked : s.Booked) :
    s.LivesUntilUnregistered := by
  refine ⟨fun c => hbooked.records.strong, fun c hinserted hweak l => ?_⟩
  have hdestroyed : .destroyed ∈ s.life c := by
    by_contra hd
    rw [hbooked.records.strong hinserted hd] at hweak
    contradiction
  obtain ⟨hdown, hchannels, hinterest⟩ := h.gone c hdestroyed
  have hclosed : ¬ (s.conns c).isOpen := Io.not_isOpen_of_down (s := s.io c) hdown
  refine ⟨?_, ?_, fun e he heq => hclosed (heq ▸ (h.active l e he).2.1)⟩
  · by_contra hset
    obtain rfl := (hbooked.wired.registered l c (.inr hset)).1
    exact hset hchannels
  · by_contra hset
    obtain rfl := (hbooked.wired.registered l c (.inl hset)).1
    exact hset hinterest

variable [DecidableEq L]

/-- A function comes to user code: no event of its connection waits, and it is down when it leaves. -/
theorem Unshared.push (h : s.Unshared) {f : ServerFrame}
    (hactive : ∀ e ∈ s.activeChannels l, e.1 ≠ f.target)
    (hleaves : f.leaves = true → (s.conns f.target).state = .kDisconnected) : (s.push l f).Unshared := by
  refine { h with
    active := fun l' e he => ⟨(h.active l' e he).1, (h.active l' e he).2.1, fun g hg => ?_⟩
    stacked := fun l' g hg => ?_ }
  · rcases mem_push.mp hg with hg | ⟨rfl, rfl⟩
    · exact (h.active l' e he).2.2 g hg
    · exact (hactive e he).symm
  · rcases mem_push.mp hg with hg | ⟨rfl, rfl⟩
    · exact h.stacked l' g hg
    · exact hleaves

/-- A function is left. -/
theorem Unshared.popFrame (h : s.Unshared) (l : L) : (s.popFrame l).Unshared :=
  { h with
    active := fun l' e he => ⟨(h.active l' e he).1, (h.active l' e he).2.1,
      fun f hf => (h.active l' e he).2.2 f (mem_of_mem_popFrame hf)⟩
    stacked := fun l' f hf => h.stacked l' f (mem_of_mem_popFrame hf) }

/-- A poll: what it reports is open, and no function of it is under way. -/
theorem Unshared.poll (h : s.Unshared) {batch : List (ℕ × Mask)} (hnodup : (batch.map Prod.fst).Nodup)
    (hbatch : ∀ e ∈ batch, s.home e.1 = l ∧ (s.conns e.1).isOpen ∧ ∀ f ∈ s.stack l, f.target ≠ e.1) :
    ({ s with
      phase := Function.update s.phase l .dispatching
      activeChannels := Function.update s.activeChannels l batch } : ServerSystem L).Unshared := by
  refine { h with
    nodup := ?_
    idle := fun l' hl' => ?_
    active := ?_ }
  · exact (Function.forall_update_iff _ fun _ (events : List (ℕ × Mask)) =>
      (events.map Prod.fst).Nodup).mpr ⟨hnodup, fun l' _ => h.nodup l'⟩
  · have hl : l' ≠ l := by
      rintro rfl
      exact hl' (Function.update_self _ _ _)
    change Function.update s.phase l _ l' ≠ _ at hl'
    change Function.update s.activeChannels l _ l' = _
    rw [Function.update_of_ne hl] at hl' ⊢
    exact h.idle l' hl'
  · exact (Function.forall_update_iff _ fun l' (events : List (ℕ × Mask)) => ∀ e ∈ events, s.home e.1 = l' ∧
      (s.conns e.1).isOpen ∧ ∀ f ∈ s.stack l', f.target ≠ e.1).mpr ⟨hbatch, fun l' _ => h.active l'⟩

/-- An active channel is taken. -/
theorem Unshared.popActive (h : s.Unshared) (l : L) : (s.popActive l).Unshared := by
  have htail (l' : L) : (s.popActive l).activeChannels l' = s.activeChannels l' ∨
      (s.popActive l).activeChannels l' = (s.activeChannels l').tail := by
    by_cases hl : l' = l
    · subst hl
      exact .inr (Function.update_self _ _ _)
    · exact .inl (Function.update_of_ne hl _ _)
  refine { h with
    nodup := fun l' => ?_
    idle := fun l' hl' => ?_
    active := fun l' e he => h.active l' e ?_ }
  · rcases htail l' with heq | heq
    · exact heq ▸ h.nodup l'
    · rw [heq, List.map_tail]
      exact (h.nodup l').tail
  · have hempty := h.idle l' hl'
    rcases htail l' with heq | heq
    · exact heq.trans hempty
    · rw [heq, hempty, List.tail_nil]
  · rcases htail l' with heq | heq
    · exact heq ▸ he
    · rw [heq] at he
      exact List.mem_of_mem_tail he

/-- Another phase of a loop without active channels. -/
theorem Unshared.turn (h : s.Unshared) (phase : LoopPhase) (hactive : s.activeChannels l = []) :
    ({ s with phase := Function.update s.phase l phase } : ServerSystem L).Unshared := by
  refine { h with idle := ?_ }
  exact (Function.forall_update_iff _ fun l' phase => phase ≠ LoopPhase.dispatching →
    s.activeChannels l' = []).mpr ⟨fun _ => hactive, fun l' _ => h.idle l'⟩

/-- A functor is queued. -/
theorem Unshared.queueInLoop (h : s.Unshared) {f : ServerFunctor} (hraw : f.raw = false)
    (hleaves : f.leaves = true → (s.conns f.target).state = .kDisconnected) (l : L) :
    (s.queueInLoop l f).Unshared := by
  refine { h with waiting := fun l' g hg => ?_ }
  rcases mem_queueInLoop.mp hg with hg | ⟨-, rfl⟩
  · exact h.waiting l' g hg
  · exact ⟨hraw, hleaves⟩

/-- A functor is taken out of the vector. -/
theorem Unshared.popFunctor (h : s.Unshared) {f : ServerFunctor}
    (hhead : (s.functors l).head? = some f) : (s.popFunctor l).Unshared :=
  { h with waiting := fun l' g hg => h.waiting l' g (mem_queued_of_popFunctor hhead hg) }

/-- `removeConnectionInLoop` of a connection that is down. -/
theorem Unshared.removeConnectionInLoop (h : s.Unshared) (hdown : (s.conns c).state = .kDisconnected) :
    (s.removeConnectionInLoop c).Unshared :=
  have hqueue := h.queueInLoop (f := .connectDestroyed c) rfl (fun _ => hdown) (s.home c)
  { hqueue.note (e := .removed) (by decide) c with }

/-- `removeConnection` of a connection that is down. -/
theorem Unshared.removeConnection (h : s.Unshared) (hdown : (s.conns c).state = .kDisconnected) :
    (s.removeConnection c).Unshared := by
  unfold ServerSystem.removeConnection
  split
  · exact h.removeConnectionInLoop hdown
  · exact h.queueInLoop (f := .removeConnectionInLoop c) rfl (fun _ => hdown) _

/-- A function of a connection of which no event waits. -/
theorem Unshared.put (h : s.Unshared)
    (hdistinct : ∀ c d, (s.conns c).channel.fd = (s.conns d).channel.fd → c = d)
    (hmoves : Io.Moves (s.io c) x) (hsettled : x.Settled)
    (hactive : ∀ e ∈ s.activeChannels (s.home c), e.1 ≠ c)
    (hgone : .destroyed ∈ s.life c → x.poller.channels x.conn.channel.fd = none ∧
      x.poller.interest x.conn.channel.fd = none) : (s.put c x).Unshared := by
  have hself : (s.put c x).io c = x := by simp [ServerSystem.put, io]
  have hother {d : ℕ} (hd : d ≠ c) : (s.put c x).conns d = s.conns d := Function.update_of_ne hd _ _
  have hframe {d : ℕ} (hd : d ≠ c) : ∃ q, (s.put c x).io d = ⟨s.conns d, q, s.log d⟩ ∧
      (s.io d).poller.SameExcept q (s.conns c).channel.fd := by
    by_cases hl : s.home d = s.home c
    · refine ⟨x.poller, by simp [ServerSystem.put, io, hd, hl], ?_⟩
      change (s.poller (s.home d)).SameExcept _ _
      rw [hl]
      exact hmoves.frame
    · exact ⟨s.poller (s.home d), by simp [ServerSystem.put, io, hd, hl], fun _ _ => ⟨rfl, rfl⟩⟩
  have hdown {d : ℕ} (hd : (s.conns d).state = .kDisconnected) :
      ((s.put c x).conns d).state = .kDisconnected := by
    by_cases hdc : d = c
    · subst hdc
      rw [show (s.put d x).conns d = x.conn from Function.update_self _ _ _]
      exact hmoves.down hd
    · rwa [hother hdc]
  refine { h with
    settled := fun d => ?_
    active := fun l e he => ?_
    stacked := fun l f hf hl => hdown (h.stacked l f hf hl)
    waiting := fun l f hf => (h.waiting l f hf).imp_right fun hw hl => hdown (hw hl)
    gone := fun d hd => ⟨hdown (h.gone d hd).1, ?_⟩ }
  · by_cases hdc : d = c
    · subst hdc
      rwa [hself]
    · obtain ⟨q, hio, hsame⟩ := hframe hdc
      rw [hio]
      exact (h.settled d).frame hsame fun heq => hdc (hdistinct d c heq)
  · obtain ⟨hhome, hopen, hfree⟩ := h.active l e he
    have hne : e.1 ≠ c := by
      rintro rfl
      exact hactive e (hhome ▸ he) rfl
    exact ⟨hhome, (hother hne).symm ▸ hopen, hfree⟩
  · unfold unregistered
    by_cases hdc : d = c
    · subst hdc
      rw [show (s.put d x).conns d = x.conn from Function.update_self _ _ _, hself]
      exact hgone hd
    · obtain ⟨q, hio, hsame⟩ := hframe hdc
      obtain ⟨hchannels, hinterest⟩ := hsame _ fun heq => hdc (hdistinct d c heq)
      rw [hio, hother hdc]
      exact ⟨hchannels.trans (h.gone d hd).2.1, hinterest.trans (h.gone d hd).2.2⟩

/-- A function of a connection with what it starts: only one that takes it down calls the close
callback. -/
theorem Unshared.perform (h : s.Unshared)
    (hdistinct : ∀ c d, (s.conns c).channel.fd = (s.conns d).channel.fd → c = d)
    (hmoves : Io.Moves (s.io c) x) (hsettled : x.Settled)
    (hactive : ∀ e ∈ s.activeChannels (s.home c), e.1 ≠ c)
    (hgone : .destroyed ∈ s.life c → x.poller.channels x.conn.channel.fd = none ∧
      x.poller.interest x.conn.channel.fd = none) : (s.perform c x).Unshared := by
  have hput : (s.put c x).Unshared ∧ (∀ e ∈ (s.put c x).activeChannels ((s.put c x).home c), e.1 ≠ c) ∧
      (s.put c x).conns c = x.conn :=
    ⟨h.put hdistinct hmoves hsettled hactive hgone, hactive, Function.update_self _ _ _⟩
  refine (starts_induction (P := fun t => t.Unshared ∧ (∀ e ∈ t.activeChannels (t.home c), e.1 ≠ c) ∧
    t.conns c = x.conn) _ (fun t ht => ?_) (fun t ht => ?_) (fun hclose t ht => ?_) hput).1
  · exact ⟨ht.1.queueInLoop (f := .callback c) rfl (fun hl => nomatch hl) _, ht.2⟩
  · exact ⟨ht.1.note (by decide) c, ht.2⟩
  · refine ⟨ht.1.push ht.2.1 fun _ => ?_, ht.2⟩
    change (t.conns c).state = _
    rw [ht.2.2]
    exact hsettled.down_of_closeCallback (List.mem_of_mem_drop hclose)

/-- A connection that the base loop serves. -/
theorem Unshared.acceptHere (h : s.Unshared) (hbooked : s.Booked) {connName : List Char}
    {server : TcpServer L} (hid : s.server.nextConnId < 2 ^ 31)
    (hnew : s.server.newConnection = some (s.server.loop, connName, c, server))
    (hx : ((s.insert s.server.loop connName c server).io c).connectEstablished = .ok x) :
    ((((s.insert s.server.loop connName c server).push s.server.loop
      (.newConnection c)).establishing c).perform c x).Unshared := by
  obtain ⟨hinsert, -, hbegun, -⟩ := hbooked.insert hid hnew
  obtain ⟨-, -, hc, -⟩ := TcpServer.newConnection_spec hnew
  have hentry : (s.insert s.server.loop connName c server).Unshared :=
    h.insert hbooked.wired (fun l e he => (hbooked.records.active l e he).2)
      (hbooked.records.fresh c hc.ge)
  set t := s.insert s.server.loop connName c server
  have hnew := (hinsert.wired.state c).mpr hbegun
  have hfree (l : L) : ∀ e ∈ t.activeChannels l, e.1 ≠ c := by
    rintro e he rfl
    exact hbegun (hinsert.records.active l e he).2
  obtain ⟨hkeeps, hopen⟩ := Io.connectEstablished_keeps (hinsert.wired.sound c) hnew hx
  have hpush : (t.push s.server.loop (.newConnection c)).Unshared :=
    hentry.push (hfree _) fun hl => nomatch hl
  have hbegin := (hpush.note (e := .establishing) (by decide) c).push (f := .connectEstablished c)
    (l := t.home c) (hfree _) fun hl => nomatch hl
  refine hbegin.perform hinsert.wired.distinct hkeeps.moves (hkeeps.settled (hentry.settled c)) (hfree _)
    fun hd => absurd ?_ (hentry.not_destroyed (c := c) (by simp [hnew]))
  exact (mem_note.mp hd).resolve_right fun hd => nomatch hd.2

/-- `connectEstablished` from the queue. -/
theorem Unshared.establish (h : s.Unshared) (hbooked : s.Booked)
    (hphase : s.phase l = .callingPendingFunctors)
    (hhead : (s.functors l).head? = some (.connectEstablished c))
    (hx : (s.io c).connectEstablished = .ok x) :
    (((s.popFunctor l).establishing c).perform c x).Unshared := by
  obtain ⟨hhome, -, hbegins⟩ := hbooked.records.waiting l _ (mem_queued_of_head hhead)
  obtain rfl : s.home c = l := hhome
  have hbegun : ¬ s.begun c := fun hc => nomatch hbegins.mp hc
  have hnew := (hbooked.wired.state c).mpr hbegun
  have hfree : ∀ e ∈ s.activeChannels (s.home c), e.1 ≠ c := by
    simp [h.calling hphase]
  obtain ⟨hkeeps, hopen⟩ := Io.connectEstablished_keeps (hbooked.wired.sound c) hnew hx
  have hbegin := ((h.popFunctor hhead).note (e := .establishing) (by decide) c).push
    (f := .connectEstablished c) (l := s.home c) hfree fun hl => nomatch hl
  refine hbegin.perform hbooked.wired.distinct hkeeps.moves (hkeeps.settled (h.settled c)) hfree
    fun hd => absurd ?_ (h.not_destroyed (c := c) (by simp [hnew]))
  exact (mem_note.mp hd).resolve_right fun hd => nomatch hd.2

/-- The event of an active channel. -/
theorem Unshared.event (h : s.Unshared) (hbooked : s.Booked) {revents : Mask} {r : ReadResult}
    {rest : List (ℕ × Mask)} (hactive : s.activeChannels l = (c, revents) :: rest)
    (hlegal : (ConnCall.handleRead r).legal (s.io c) = true)
    (hx : (s.io c).handleEventRead revents r = .ok x) :
    ((((s.popActive l).note c .handler).push l (.handleEvent c revents)).perform c x).Unshared := by
  obtain ⟨hhome, hopen, -⟩ := h.active l (c, revents) (hactive ▸ List.mem_cons_self)
  obtain rfl : s.home c = l := hhome
  have hrest : (s.popActive (s.home c)).activeChannels (s.home c) = rest :=
    (Function.update_self _ _ _).trans (by rw [hactive]; rfl)
  have hfree : ∀ e ∈ (s.popActive (s.home c)).activeChannels (s.home c), e.1 ≠ c := by
    intro e he heq
    have hnodup := h.nodup (s.home c)
    rw [hactive, List.map_cons, List.nodup_cons] at hnodup
    rw [hrest] at he
    exact hnodup.1 (List.mem_map.mpr ⟨e, he, heq⟩)
  obtain ⟨hmoves, hsettled⟩ := Io.handleEventRead_keeps (hbooked.wired.sound c) hlegal hx
  have hframe := ((h.popActive (s.home c)).note (e := .handler) (by decide) c).push
    (f := .handleEvent c revents) hfree fun hl => nomatch hl
  refine hframe.perform hbooked.wired.distinct hmoves (hsettled (fun _ => hopen) (h.settled c)) hfree
    fun hd => absurd ?_ (h.not_destroyed (Io.ne_of_isOpen (s := s.io c) hopen).2)
  exact (mem_note.mp hd).resolve_right fun hd => nomatch hd.2

/-- The end of `connectDestroyed`, when it has left the stack or the vector. -/
theorem Unshared.finishDestroy (h : s.Unshared) (hbooked : s.Booked) (ht : t.Unshared)
    (hconns : t.conns = s.conns) (hio : t.io c = s.io c)
    (hactive : ∀ e ∈ t.activeChannels (t.home c), e.1 ≠ c) (hdown : (s.conns c).state = .kDisconnected)
    (hx : (s.io c).onChannel Channel.remove = .ok x) : ((t.put c x).note c .destroyed).Unshared := by
  obtain ⟨hkeeps, hstate, hgone⟩ := Io.remove_keeps (hbooked.wired.sound c) hdown hx
  obtain ⟨hchannels, hinterest, -⟩ := hgone (h.settled c)
  have hput : (t.put c x).Unshared := by
    refine ht.put (fun d d' heq => ?_) (hio ▸ hkeeps.moves) (hkeeps.settled (h.settled c)) hactive
      fun _ => ⟨hchannels, hinterest⟩
    rw [hconns] at heq
    exact hbooked.wired.distinct d d' heq
  have hself : (t.put c x).conns c = x.conn := Function.update_self _ _ _
  refine hput.noteDestroyed (hself.symm ▸ hstate) ?_
  unfold unregistered
  rw [hself, show (t.put c x).io c = x by simp [ServerSystem.put, io]]
  exact ⟨hchannels, hinterest⟩

/-- Every step of a run in which user code keeps nothing. -/
theorem Unshared.step (h : s.Unshared) (hbooked : s.Booked) {label : ServerLabel L}
    (hnothing : label.takesNothing = true) (hs : s.step label = some s') : s'.Unshared := by
  have hrecords := hbooked.records
  cases step_spec hs with
  | acceptHere _ hid hnew hx => exact h.acceptHere hbooked hid hnew hx
  | @acceptAway ioLoop connName c server _ hnew =>
    obtain ⟨-, -, hc, -⟩ := TcpServer.newConnection_spec hnew
    have hentry : (s.insert ioLoop connName c server).Unshared :=
      h.insert hbooked.wired (fun l e he => (hrecords.active l e he).2) (hrecords.fresh c hc.ge)
    exact hentry.queueInLoop (f := .connectEstablished c) rfl (fun hl => nomatch hl) _
  | @poll l batch hphase hstack hnodup hreports =>
    refine h.poll hnodup fun e he => ?_
    obtain ⟨hhome, -⟩ := hbooked.wired.registered l e.1 (.inl (hreports e he))
    refine ⟨hhome, (h.settled e.1).open_of_registered ?_, ?_⟩
    · subst hhome
      exact hreports e he
    · rw [hstack]
      exact fun f hf => nomatch hf
  | event _ _ hactive hlegal hx => exact h.event hbooked hactive hlegal hx
  | returned => exact h.popFrame _
  | established => exact (h.popFrame _).note (by decide) _
  | @eventWrite l w c revents x hstack hfits hx =>
    have hmem := List.mem_of_head? hstack
    have hkeeps := Io.handleEventWrite_keeps (hbooked.wired.sound c) hfits hx
    refine (h.popFrame l).perform hbooked.wired.distinct hkeeps.moves (hkeeps.settled (h.settled c))
      (h.free hmem (hrecords.frames l _ hmem).1) fun hd => ?_
    obtain ⟨hdown, hgone⟩ := h.gone c hd
    rw [Io.handleEventWrite_down (h.settled c) hdown hx]
    exact hgone
  | @closed l w c hstack =>
    exact (h.popFrame l).removeConnection (h.stacked l _ (List.mem_of_head? hstack) rfl)
  | @destroyed l w c x hstack hx =>
    have hmem := List.mem_of_head? hstack
    have hdown := h.stacked l _ hmem rfl
    rw [perform_eq_put (s := s.popFrame l) (Io.remove_moves (hbooked.wired.sound c) hx).2.2]
    exact h.finishDestroy hbooked (h.popFrame l) rfl rfl (h.free hmem (hrecords.frames l _ hmem).1) hdown hx
  | @doPendingFunctors l hphase hactive _ =>
    have hempty := (hrecords.emptied l (by simp [hphase])).1
    refine (h.turn .callingPendingFunctors hactive).requeue fun l' f hf => .inl ?_
    by_cases hl : l' = l
    · subst hl
      rw [Function.update_self, Function.update_self, List.append_nil] at hf
      exact List.mem_append_right _ hf
    · rwa [Function.update_of_ne hl, Function.update_of_ne hl] at hf
  | establish hphase _ hfunctor hx => exact h.establish hbooked hphase hfunctor hx
  | @remove l msg w log c _ _ hfunctor =>
    exact (h.popFunctor hfunctor).removeConnectionInLoop
      ((h.waiting l _ (mem_queued_of_head hfunctor)).2 rfl)
  | @destroyNotify l msg w log c x _ _ hfunctor hstate _ =>
    have hdown : (s.conns c).state = .kDisconnected :=
      (h.waiting l _ (mem_queued_of_head hfunctor)).2 rfl
    rw [hdown] at hstate
    contradiction
  | @destroy l msg w log c x hphase _ hfunctor _ hx =>
    have hmem := mem_queued_of_head hfunctor
    obtain rfl : s.home c = l := (hrecords.waiting l _ hmem).1
    have hfree : ∀ e ∈ s.activeChannels (s.home c), e.1 ≠ c := by simp [h.calling hphase]
    rw [perform_eq_put (s := (s.popFunctor _).note c .destroying)
      (Io.remove_moves (hbooked.wired.sound c) hx).2.2]
    exact h.finishDestroy hbooked ((h.popFunctor hfunctor).note (by decide) c) rfl rfl hfree
      ((h.waiting _ _ hmem).2 rfl) hx
  | @callback l msg w log c hphase _ hfunctor =>
    obtain rfl : s.home c = l := (hrecords.waiting l _ (mem_queued_of_head hfunctor)).1
    have hfree : ∀ e ∈ s.activeChannels (s.home c), e.1 ≠ c := by simp [h.calling hphase]
    exact ((h.popFunctor hfunctor).note (e := .notification) (by decide) c).push (f := .callback c) hfree
      fun hl => nomatch hl
  | @sendInLoop l msg w log c x _ _ hfunctor _ =>
    exact absurd (h.waiting l _ (mem_queued_of_head hfunctor)).1 (by simp [ServerFunctor.raw])
  | @shutdownInLoop l msg w log c _ _ hfunctor =>
    exact absurd (h.waiting l _ (mem_queued_of_head hfunctor)).1 (by simp [ServerFunctor.raw])
  | @loopAgain l hphase hfunctors _ =>
    exact (h.turn .polling (h.calling hphase)).requeue fun l' f hf => .inl hf
  | @call c call x hreaches huser hx =>
    obtain ⟨-, hholder⟩ := Bool.and_eq_true_iff.mp hreaches
    rw [h.pointers c, decide_eq_false (by decide), Bool.or_false] at hholder
    obtain ⟨f, hf, htarget⟩ := List.any_eq_true.mp hholder
    obtain rfl := eq_of_beq htarget
    have hkeeps := Io.callStep_keeps (hbooked.wired.sound _) huser hx
    refine h.perform hbooked.wired.distinct hkeeps.moves (hkeeps.settled (h.settled _)) (h.free hf rfl)
      fun hd => ?_
    obtain ⟨hdown, hgone⟩ := h.gone _ hd
    obtain ⟨input, rfl⟩ := Io.callStep_idle (s := s.io _) huser
      (fun hconnected => nomatch hconnected.symm.trans hdown) hx
    exact hgone
  | take => contradiction
  | release hpointers _ | otherSend hpointers _ | otherShutdown hpointers _ =>
    exact absurd (h.pointers _) (Nat.ne_of_gt hpointers)
  | otherStore hi =>
    exact absurd (h.pointers _) (Nat.ne_of_gt (hrecords.storing _ (List.mem_of_getElem? hi)))
  | otherQueue hi =>
    exact absurd (h.pointers _) (Nat.ne_of_gt (hrecords.posting _ (List.mem_of_getElem? hi)).2)

end ServerSystem

/-- Nothing is shared before the first connection. -/
theorem Deployment.listening_unshared {L : Type*} (d : Deployment L) : d.listening.Unshared where
  pointers _ := rfl
  settled c := (d.opening c).constructed_settled.repoll
    ⟨(d.unknown _ c).1.trans (d.opening c).unknown.1.symm,
      (d.unknown _ c).2.trans (d.opening c).unknown.2.symm⟩
  nodup _ := .nil
  idle _ _ := rfl
  active _ _ he := nomatch he
  stacked _ _ hf := nomatch hf
  waiting _ _ hf := nomatch hf
  gone _ hc := nomatch hc

/-- In every run of a server in which user code keeps no reference, every connection lives until its
channel is out of the poller and of the active channels. -/
theorem connections_liveUntilUnregistered {L : Type*} [DecidableEq L] (d : Deployment L)
    (labels : List (ServerLabel L))
    (h : Along ServerSystem.step (fun _ label => label.takesNothing = true) d.listening labels) :
    Everywhere ServerSystem.step ServerSystem.LivesUntilUnregistered d.listening labels :=
  everywhere_of_along (I := fun s => s.Booked ∧ s.Unshared)
    (fun _ hs => hs.2.livesUntilUnregistered hs.1)
    (fun _ _ _ hs hnothing hstep => ⟨hs.1.step hstep, hs.2.step hs.1 hnothing hstep⟩)
    ⟨d.listening_booked, d.listening_unshared⟩ h

/-- A connection is accepted, closed by its peer and destroyed. -/
theorem connections_liveUntilUnregistered_hangup :
    let labels : List (ServerLabel Unit) := [.poll () [], .accept, .resume () (.accepted 0),
      .resume () (.accepted 0), .doPendingFunctors (), .loopAgain (), .poll () [(1, EPOLLHUP)],
      .event () (.failed 0), .resume () (.accepted 0), .resume () (.accepted 0), .doPendingFunctors (),
      .functor () ⟨0, [], by decide⟩ (.accepted 0) ⟨id, id⟩, .loopAgain ()]
    (run ServerSystem.step Deployment.loopback.listening labels).any (fun s => !s.strong 1) = true ∧
      Everywhere ServerSystem.step ServerSystem.LivesUntilUnregistered Deployment.loopback.listening
        labels :=
  ⟨by decide +kernel, connections_liveUntilUnregistered _ _ (by decide +kernel)⟩

end CcMuduo
