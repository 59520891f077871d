import CcMuduo.TcpConnection.OutputStream
import CcMuduo.TcpServer.Rest

/-!
# The output streams of a server

The bytes that are given to `sendInLoop`, by user code on the loop of a connection and by the functors
that other threads have queued, leave in order on their own connection, whatever happens to the others.
What breaks the stream of a connection is the same as for a connection alone: the offset of a direct
`::write` that failed.

In a server the state of a connection that was closed may be overwritten, and its close callback be called
more than once; neither matters here, because its stream is over with the first close.
-/

namespace CcMuduo

open Foundation

namespace Io

/-- The buffers are well formed, and a connection that is down was closed. -/
structure Stands (s : Io) : Prop extends Sound s where
  fell : s.conn.state = .kDisconnected → closed s.effects = true

/-- From the one state to the other an open connection has sent nothing new. -/
def SameStream (s s' : Io) : Prop :=
  written s'.effects ++ s'.conn.outputBuffer.content = written s.effects ++ s.conn.outputBuffer.content

variable {s s' : Io}

/-- A connection that was not closed is in order. -/
theorem Stands.good (h : s.Stands) (hopen : closed s.effects = false) : s.Good := by
  refine ⟨h.output, h.input, iff_of_false (by simp [hopen]) fun hstate => ?_, fun hclosed => ?_⟩
  · have := h.fell hstate
    simp [hopen] at this
  · simp [hopen] at hclosed

/-- A connection that is in order if it was not closed. -/
theorem stands_of_good (hsound : s.Sound) (h : closed s.effects = false → s.Good) : s.Stands := by
  refine ⟨hsound, fun hstate => ?_⟩
  by_contra hopen
  rw [Bool.not_eq_true] at hopen
  have := (h hopen).closed_iff.mpr hstate
  simp [hopen] at this

/-- A connection that is not closed was not closed before. -/
theorem open_of_grows (hgrows : s.effects <+: s'.effects) (hopen : closed s'.effects = false) :
    closed s.effects = false := by
  obtain ⟨new, hnew⟩ := hgrows
  rw [← hnew, closed_append, Bool.or_eq_false_iff] at hopen
  exact hopen.1

/-- A call leaves a connection in order that it leaves open. -/
theorem Stands.callStep (h : s.Stands) {call : ConnCall} (hs : callStep s call = some s')
    (hopen : closed s'.effects = false) : s'.Good :=
  (h.good (open_of_grows (callStep_grows h.toSound hs) hopen)).step hs

/-- The first half of an event sends nothing. -/
theorem Stands.handleEventRead (h : s.Stands) {revents : Mask} {r : ReadResult}
    (hlegal : (ConnCall.handleRead r).legal s = true) (hx : s.handleEventRead revents r = .ok s')
    (hopen : closed s'.effects = false) : s'.Good ∧ SameStream s s' := by
  obtain ⟨new, hnew, -⟩ := handleEventRead_new h.toSound hlegal hx
  have hgood := h.good (open_of_grows ⟨new, hnew.symm⟩ hopen)
  unfold Io.handleEventRead at hx
  split at hx
  · exact Except.ok.inj hx ▸ ⟨hgood, rfl⟩
  · split at hx
    · rw [(handleClose_closed hx).closed] at hopen
      contradiction
    · split at hx
      · have hstep := callStep_eq_some.mpr ⟨hlegal, hx⟩
        exact ⟨hgood.step hstep, other_stream hgood (by simp) hstep hopen⟩
      · exact Except.ok.inj hx ▸ ⟨hgood, rfl⟩

/-- The second half of an event sends what is in `outputBuffer`. -/
theorem Stands.handleEventWrite (h : s.Stands) {revents : Mask} {w : WriteResult}
    (hfits : w.fits s.conn.outputBuffer.readableBytes = true)
    (hx : s.handleEventWrite revents w = .ok s') (hopen : closed s'.effects = false) :
    s'.Good ∧ SameStream s s' := by
  obtain ⟨new, hnew, -⟩ := handleEventWrite_new h.toSound hfits hx
  have hgood := h.good (open_of_grows ⟨new, hnew.symm⟩ hopen)
  unfold Io.handleEventWrite at hx
  split at hx
  · exact Except.ok.inj hx ▸ ⟨hgood, rfl⟩
  · split at hx
    · have hlegal : (ConnCall.handleWrite w).legal s = true := hfits
      have hstep := callStep_eq_some.mpr ⟨hlegal, hx⟩
      exact ⟨hgood.step hstep, other_stream hgood (by simp) hstep hopen⟩
    · exact Except.ok.inj hx ▸ ⟨hgood, rfl⟩

/-- On another poller. -/
theorem Stands.repoll (h : s.Stands) (p : EpollPoller) : Stands ⟨s.conn, p, s.effects⟩ :=
  ⟨⟨h.output, h.input⟩, h.fell⟩

/-- `connectEstablished` sends nothing. -/
theorem Stands.connectEstablished (h : s.Stands) (hx : s.connectEstablished = .ok s')
    (hopen : closed s'.effects = false) : s'.Good ∧ SameStream s s' := by
  obtain ⟨s₁, h₁, heq⟩ := bind_eq_ok.mp hx
  obtain ⟨p, index, -, rfl⟩ := onChannel_update (m := fun e => e ||| kReadEvent) h₁
  obtain rfl := Except.ok.inj heq
  refine ⟨⟨h.output, h.input, iff_of_false (by simp [hopen]) (fun hstate => nomatch hstate), ?_⟩, ?_⟩
  · simp [hopen]
  · simp [SameStream, emit, setState, written]

/-- `shutdownInLoop` sends nothing. -/
theorem Stands.shutdownInLoop (h : s.Stands) (hopen : closed s.shutdownInLoop.effects = false) :
    s.shutdownInLoop.Good ∧ SameStream s s.shutdownInLoop := by
  have hgood := h.good (open_of_grows (shutdownInLoop_grows s) hopen)
  unfold Io.shutdownInLoop
  split
  · refine ⟨hgood.of_same h.output h.input ?_ rfl rfl, ?_⟩
    · simp [emit, closed]
    · simp [SameStream, emit, written]
  · exact ⟨hgood, rfl⟩

/-- The removal of the channel sends nothing. -/
theorem Stands.remove (h : s.Stands) (hx : s.onChannel Channel.remove = .ok s')
    (hopen : closed s'.effects = false) : s'.Good ∧ SameStream s s' := by
  obtain ⟨⟨p, channel⟩, -, heq⟩ := bind_eq_ok.mp hx
  obtain rfl := Except.ok.inj heq
  have hgood := h.good hopen
  exact ⟨⟨h.output, h.input, hgood.closed_iff, fun hclosed => by simp [hopen] at hclosed⟩, rfl⟩

end Io

/-- A server with its loops, and the bytes given to `sendInLoop` of each connection so far. -/
structure ServerStreams (L : Type*) where
  sys : ServerSystem L
  given : ℕ → List UInt8

/-- The call through which a step gives bytes to a connection, if it is one. -/
def ServerSystem.giving {L : Type*} (s : ServerSystem L) : ServerLabel L → Option (ℕ × ConnCall)
  | .functor l msg w log =>
    match (s.functors l).head? with
    | some (.sendInLoop c) => some (c, .sendInLoop msg w log)
    | _ => none
  | .call c call => some (c, call)
  | .accept | .poll _ _ | .event _ _ | .resume _ _ | .doPendingFunctors _ | .loopAgain _ | .take _
  | .release _ | .otherSend _ | .otherShutdown _ | .otherStore _ _ | .otherQueue _ => none

namespace ServerStreams

variable {L : Type*}

/-- One connection and the bytes given to it. -/
def stream (s : ServerStreams L) (c : ℕ) : Stream := ⟨s.sys.io c, s.given c⟩

/-- What has been given behind a step. -/
def givenAfter (s : ServerStreams L) (label : ServerLabel L) : ℕ → List UInt8 :=
  match s.sys.giving label with
  | some (c, call) => Function.update s.given c (s.given c ++ call.given (s.sys.io c))
  | none => s.given

/-- When a direct `::write` on an open connection fails and the message is kept for later, each of its
bytes is the byte that stands in memory in front of the message. -/
def harmless (s : ServerStreams L) (label : ServerLabel L) : Prop :=
  ∀ p ∈ s.sys.giving label, closed (s.sys.log p.1) = false → offsetHarmless (s.stream p.1) p.2

/-- One step, with its bytes added to what was given. -/
def step [DecidableEq L] (s : ServerStreams L) (label : ServerLabel L) : Option (ServerStreams L) :=
  (s.sys.step label).map fun sys => ⟨sys, s.givenAfter label⟩

/-- What holds of a run: the books and the accounts of the server, and of each connection, that it was
closed when it is down and that its stream is intact. -/
structure Inv (s : ServerStreams L) : Prop where
  booked : s.sys.Booked
  accounted : s.sys.Accounted
  fell : ∀ c, (s.sys.conns c).state = .kDisconnected → closed (s.sys.log c) = true
  intact : ∀ c, Intact (s.stream c)

variable {s : ServerStreams L} {t : ServerSystem L} {c d : ℕ} {x : Io}

/-- Each connection was closed when it is down. -/
theorem Inv.stands (h : s.Inv) (c : ℕ) : (s.sys.io c).Stands := ⟨h.booked.wired.sound c, h.fell c⟩

/-- A step that gives nothing does no harm, and leaves what was given. -/
theorem givenAfter_of_none {label : ServerLabel L} (h : s.sys.giving label = none) :
    s.givenAfter label = s.given ∧ s.harmless label := by
  refine ⟨by rw [givenAfter, h], fun p hp => ?_⟩
  rw [h] at hp
  contradiction

/-- A step that gives bytes through a call does harm when the call does. -/
theorem givenAfter_of_some {label : ServerLabel L} {call : ConnCall}
    (h : s.sys.giving label = some (c, call)) :
    s.givenAfter label = Function.update s.given c (s.given c ++ call.given (s.sys.io c)) ∧
      (s.harmless label ↔ (closed (s.sys.log c) = false → offsetHarmless (s.stream c) call)) := by
  refine ⟨by rw [givenAfter, h], ?_⟩
  unfold harmless
  rw [h]
  simp

/-- What a step leaves of the state and the streams of the connections, when it has given them so much:
the streams are intact under a condition. -/
structure Leaves (given : ℕ → List UInt8) (P : Prop) (t : ServerSystem L) : Prop where
  fell : ∀ c, (t.conns c).state = .kDisconnected → closed (t.log c) = true
  intact : (∀ c, Intact ⟨t.io c, given c⟩) ↔ P

variable {given : ℕ → List UInt8} {P : Prop}

/-- The streams are in the logs and in the output buffers. -/
theorem Leaves.of_same (h : Leaves given P t) {u : ServerSystem L} (hlog : u.log = t.log)
    (hstate : ∀ c, (u.conns c).state = .kDisconnected → (t.conns c).state = .kDisconnected)
    (houtput : ∀ c, (u.conns c).outputBuffer = (t.conns c).outputBuffer) : Leaves given P u := by
  refine ⟨fun c hc => ?_, Iff.trans (forall_congr' fun c => ?_) h.intact⟩
  · rw [hlog]
    exact h.fell c (hstate c hc)
  · simp only [Intact, ServerSystem.io]
    rw [hlog, houtput]

/-- The same under an equivalent condition. -/
theorem Leaves.congr {Q : Prop} (h : Leaves given P t) (hPQ : P ↔ Q) : Leaves given Q t :=
  ⟨h.fell, h.intact.trans hPQ⟩

/-- What was left before the step. -/
theorem Inv.leaves (h : s.Inv) : Leaves s.given True s.sys :=
  ⟨h.fell, iff_of_true h.intact trivial⟩

/-- A step that touches neither connections nor logs. -/
theorem Inv.leaves_of_same (h : s.Inv) (hconns : t.conns = s.sys.conns) (hlog : t.log = s.sys.log) :
    Leaves s.given True t :=
  h.leaves.of_same hlog (fun c hc => hconns ▸ hc) fun c => by rw [hconns]

variable [DecidableEq L]

/-- What a function of a connection leaves of all connections. -/
theorem perform_fields (t : ServerSystem L) (c : ℕ) (x : Io) :
    (t.perform c x).conns = Function.update t.conns c x.conn ∧
      (t.perform c x).log = Function.update t.log c x.effects :=
  ServerSystem.starts_induction (P := fun u => u.conns = Function.update t.conns c x.conn ∧
    u.log = Function.update t.log c x.effects) _ (fun _ => id) (fun _ => id) (fun _ _ => id) ⟨rfl, rfl⟩

/-- A function of one connection leaves the others as they are. -/
theorem Inv.leaves_perform (h : s.Inv) (hconns : t.conns = s.sys.conns) (hlog : t.log = s.sys.log)
    (hother : ∀ d ≠ c, given d = s.given d) (hx : x.Stands) :
    Leaves given (Intact ⟨x, given c⟩) (t.perform c x) := by
  obtain ⟨hconns', hlog'⟩ := perform_fields t c x
  rw [hconns] at hconns'
  rw [hlog] at hlog'
  have hself : Intact ⟨(t.perform c x).io c, given c⟩ ↔ Intact ⟨x, given c⟩ := by
    simp only [Intact, ServerSystem.io]
    rw [hconns', hlog', Function.update_self, Function.update_self]
  refine ⟨fun d hstate => ?_, fun hintact => hself.mp (hintact c), fun hintact d => ?_⟩
  · by_cases hd : d = c
    · subst hd
      rw [hconns', Function.update_self] at hstate
      rw [hlog', Function.update_self]
      exact hx.fell hstate
    · rw [hconns', Function.update_of_ne hd] at hstate
      rw [hlog', Function.update_of_ne hd]
      exact h.fell d hstate
  · by_cases hd : d = c
    · subst hd
      exact hself.mpr hintact
    · have hbefore := h.intact d
      simp only [Intact, ServerSystem.io, stream] at hbefore ⊢
      rw [hconns', hlog', Function.update_of_ne hd, Function.update_of_ne hd, hother d hd]
      exact hbefore

/-- The buffers behind a step are well formed, and so are those that a function of a connection has left. -/
theorem sound_of_perform {u : ServerSystem L} (h : u.Booked) (hu : u.conns = (t.perform c x).conns) :
    x.Sound := by
  have hconn : u.conns c = x.conn := by rw [hu, (perform_fields t c x).1, Function.update_self]
  have hsound := h.wired.sound c
  refine ⟨?_, ?_⟩
  · rw [← hconn]
    exact hsound.output
  · rw [← hconn]
    exact hsound.input

/-- A function of one connection that sends nothing new. -/
theorem Inv.leaves_silent (h : s.Inv) (hconns : t.conns = s.sys.conns) (hlog : t.log = s.sys.log)
    (hsound : x.Sound) (hgrows : s.sys.log c <+: x.effects)
    (hx : closed x.effects = false → x.Good ∧ Io.SameStream (s.sys.io c) x) :
    Leaves s.given True (t.perform c x) := by
  refine (h.leaves_perform hconns hlog (fun _ _ => rfl)
    (Io.stands_of_good hsound fun hopen => (hx hopen).1)).congr (iff_of_true (fun hopen => ?_) trivial)
  exact (hx hopen).2.trans (h.intact c (Io.open_of_grows (s := s.sys.io c) hgrows hopen))

/-- A call of one connection leaves its stream intact exactly when the offset does no harm. -/
theorem Inv.leaves_call (h : s.Inv) {call : ConnCall} (hconns : t.conns = s.sys.conns)
    (hlog : t.log = s.sys.log) (hsound : x.Sound) (hx : callStep (s.sys.io c) call = some x) :
    Leaves (Function.update s.given c (s.given c ++ call.given (s.sys.io c)))
      (closed (s.sys.log c) = false → offsetHarmless (s.stream c) call) (t.perform c x) := by
  have hstands := Io.stands_of_good hsound ((h.stands c).callStep hx)
  refine (h.leaves_perform hconns hlog (fun d hd => Function.update_of_ne hd _ _) hstands).congr ?_
  rw [Function.update_self]
  cases hclosed : closed (s.sys.log c) with
  | true =>
    refine iff_of_true (fun hopen => ?_) (fun hopen => nomatch hopen)
    have hbefore := Io.open_of_grows (Io.callStep_grows (h.stands c).toSound hx) hopen
    exact absurd (hclosed.symm.trans hbefore) Bool.noConfusion
  | false =>
    have hstep : streamStep (s.stream c) call = some ⟨x, s.given c ++ call.given (s.sys.io c)⟩ :=
      Option.map_eq_some_iff.mpr ⟨x, hx, rfl⟩
    rw [streamStep_intact_iff ((h.stands c).good hclosed) (h.intact c) hstep]
    exact ⟨fun hharmless _ => hharmless, fun hharmless => hharmless rfl⟩

/-- `connectEstablished` sends nothing, whatever poller the connection has got. -/
theorem Inv.leaves_connectEstablished (h : s.Inv) (hconns : t.conns = s.sys.conns)
    (hlog : t.log = s.sys.log) (hsound : x.Sound) {p : EpollPoller}
    (hx : (⟨s.sys.conns c, p, s.sys.log c⟩ : Io).connectEstablished = .ok x) :
    Leaves s.given True (t.perform c x) :=
  h.leaves_silent hconns hlog hsound ⟨_, (Io.connectEstablished_effects hx).symm⟩
    (((h.stands c).repoll p).connectEstablished hx)

/-- The removal of the channel sends nothing. -/
theorem Inv.leaves_remove (h : s.Inv) (hconns : t.conns = s.sys.conns) (hlog : t.log = s.sys.log)
    (hx : (s.sys.io c).onChannel Channel.remove = .ok x) : Leaves s.given True (t.perform c x) := by
  have hmoves := Io.remove_moves (h.stands c).toSound hx
  exact h.leaves_silent hconns hlog hmoves.1.sound (hmoves.2.2 ▸ List.prefix_rfl) ((h.stands c).remove hx)

/-- A step leaves all streams intact exactly when it does no harm to the one it gives bytes to. -/
theorem Inv.leaves_step (h : s.Inv) {label : ServerLabel L} (hs : s.sys.step label = some t) :
    Leaves (s.givenAfter label) (s.harmless label) t := by
  have hbooked := h.booked.step hs
  have silent (hgiving : s.sys.giving label = none) (hleaves : Leaves s.given True t) :
      Leaves (s.givenAfter label) (s.harmless label) t := by
    obtain ⟨hgiven, hharmless⟩ := givenAfter_of_none hgiving
    rw [hgiven]
    exact hleaves.congr (iff_of_true trivial hharmless)
  cases ServerSystem.step_spec hs with
  | acceptHere _ _ _ hx =>
    exact silent rfl (h.leaves_connectEstablished rfl rfl (sound_of_perform hbooked rfl) hx)
  | acceptAway | poll | returned | established | doPendingFunctors | loopAgain | take | release
  | otherSend | otherShutdown | otherQueue => exact silent rfl (h.leaves_of_same rfl rfl)
  | event _ _ _ hlegal hx =>
    obtain ⟨new, hnew, -⟩ := Io.handleEventRead_new (h.stands _).toSound hlegal hx
    exact silent rfl (h.leaves_silent rfl rfl (sound_of_perform hbooked rfl) ⟨new, hnew.symm⟩
      ((h.stands _).handleEventRead hlegal hx))
  | eventWrite _ hfits hx =>
    obtain ⟨new, hnew, -⟩ := Io.handleEventWrite_new (h.stands _).toSound hfits hx
    exact silent rfl (h.leaves_silent rfl rfl (sound_of_perform hbooked rfl) ⟨new, hnew.symm⟩
      ((h.stands _).handleEventWrite hfits hx))
  | closed hstack =>
    refine silent rfl (h.leaves_of_same ?_ ?_)
    all_goals
      unfold ServerSystem.removeConnection
      split <;> rfl
  | @destroyed l w c x _ hx =>
    have hremove : Leaves s.given True ((s.sys.popFrame l).perform c x) := h.leaves_remove rfl rfl hx
    exact silent rfl (hremove.of_same rfl (fun _ => id) fun _ => rfl)
  | establish _ _ hfunctor hx =>
    refine silent (by simp [ServerSystem.giving, hfunctor]) ?_
    exact h.leaves_connectEstablished rfl rfl (sound_of_perform hbooked rfl) hx
  | remove _ _ hfunctor | callback _ _ hfunctor =>
    exact silent (by simp [ServerSystem.giving, hfunctor]) (h.leaves_of_same rfl rfl)
  | @destroyNotify l msg w log c x _ _ hfunctor hstate hx =>
    refine silent (by simp [ServerSystem.giving, hfunctor]) ?_
    have hgrows : s.sys.log c <+: x.effects := ⟨_, (Io.notifyDestroyed_effects hstate hx).symm⟩
    have hremoved := h.accounted.destroying l c (.inl (ServerSystem.mem_queued_of_head hfunctor))
    have hclosed := (h.accounted.departing c).mpr (.inr (.inr hremoved))
    refine h.leaves_silent rfl rfl (sound_of_perform hbooked rfl) hgrows fun hopen => ?_
    have hbefore := Io.open_of_grows (s := s.sys.io c) hgrows hopen
    exact absurd (hclosed.symm.trans hbefore) Bool.noConfusion
  | @destroy l msg w log c x _ _ hfunctor _ hx =>
    have hremove : Leaves s.given True (((s.sys.popFunctor l).note c .destroying).perform c x) :=
      h.leaves_remove rfl rfl hx
    exact silent (by simp [ServerSystem.giving, hfunctor]) (hremove.of_same rfl (fun _ => id) fun _ => rfl)
  | @sendInLoop l msg w log c x _ _ hfunctor hx =>
    have hgiving : s.sys.giving (.functor l msg w log) = some (c, .sendInLoop msg w log) := by
      simp [ServerSystem.giving, hfunctor]
    obtain ⟨hgiven, hharmless⟩ := givenAfter_of_some hgiving
    rw [hgiven]
    refine Leaves.congr ?_ hharmless.symm
    exact h.leaves_call rfl rfl (sound_of_perform hbooked rfl) hx
  | @shutdownInLoop l msg w log c _ _ hfunctor =>
    refine silent (by simp [ServerSystem.giving, hfunctor]) ?_
    exact h.leaves_silent rfl rfl (sound_of_perform hbooked rfl) (Io.shutdownInLoop_grows (s.sys.io c))
      (h.stands c).shutdownInLoop
  | @call c call x _ _ hx =>
    have hgiving : s.sys.giving (.call c call) = some (c, call) := rfl
    obtain ⟨hgiven, hharmless⟩ := givenAfter_of_some hgiving
    rw [hgiven]
    refine Leaves.congr ?_ hharmless.symm
    exact h.leaves_call rfl rfl (sound_of_perform hbooked rfl) hx
  | @otherStore i c overwritten hi =>
    refine silent rfl (h.leaves.of_same rfl (fun d hd => ?_) fun d => ?_)
    all_goals
      by_cases hdc : d = c
      · subst hdc
        cases overwritten with
        | true => simp_all
        | false => simp_all
      · simp_all

/-- One step keeps the books, the accounts and the streams when it does no harm. -/
theorem Inv.step (h : s.Inv) {label : ServerLabel L} {s' : ServerStreams L} (hharmless : s.harmless label)
    (hs : s.step label = some s') : s'.Inv := by
  obtain ⟨t, ht, rfl⟩ := Option.map_eq_some_iff.mp hs
  obtain ⟨hfell, hintact⟩ := h.leaves_step ht
  exact ⟨h.booked.step ht, h.accounted.step h.booked ht, hfell, hintact.mpr hharmless⟩

end ServerStreams

/-- Nothing has been given to the connections of a server that has none. -/
def Deployment.streams {L : Type*} (d : Deployment L) : ServerStreams L := ⟨d.listening, fun _ => []⟩

/-- In every run of a server the streams of all connections are intact exactly when, at every direct
`::write` of the run on an open connection that fails and leaves its message to be kept, the message
consists of copies of the byte in front of it. -/
theorem server_streams_intact_iff {L : Type*} [DecidableEq L] (d : Deployment L)
    (labels : List (ServerLabel L)) :
    Everywhere ServerStreams.step (fun s => ∀ c, Intact (s.stream c)) d.streams labels ↔
      Along ServerStreams.step ServerStreams.harmless d.streams labels := by
  have hfirst : d.streams.Inv := by
    refine ⟨d.listening_booked, d.listening_accounted, fun c hc => ?_, fun c _ => ?_⟩
    · contradiction
    · rfl
  refine everywhere_iff_along (I := ServerStreams.Inv) (fun s h => h.intact)
    (fun s label s' h hharmless hstep => h.step hharmless hstep) ?_ labels hfirst
  intro s label s' h hharmful hstep hintact
  obtain ⟨t, ht, rfl⟩ := Option.map_eq_some_iff.mp hstep
  exact hharmful ((h.leaves_step ht).intact.mp hintact)

end CcMuduo
