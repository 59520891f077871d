import CcMuduo.TcpConnection.Link
import CcMuduo.TcpConnection.OutputStream

/-!
# What a step does to a link

A step of a link leaves the connection alone, or is one call on it, or one `handleClose`. In front of
that stands what the poller knows: the mask registered for the descriptor is the events of interest of
the channel, so what a poll reports is bounded by what the connection asked for.
-/

namespace CcMuduo

open Foundation

@[simp] theorem shut_append (l₁ l₂ : List Effect) : shut (l₁ ++ l₂) = (shut l₁ || shut l₂) :=
  List.any_append

/-- Sending does not shut the own direction. -/
theorem shut_of_isSend {l : List Effect} (h : ∀ e ∈ l, e.isSend = true) : shut l = false := by
  rw [shut, List.any_eq_false]
  intro e he
  have := h e he
  cases e <;> simp_all [Effect.isSend]

/-- A completed `updateChannel` leaves the descriptor unregistered, or registered with the events of the
channel. -/
theorem EpollPoller.updateChannel_interest {p q : EpollPoller} {c c' : Channel}
    (h : p.updateChannel c = .ok (q, c')) {mask : Mask} {address : ℕ}
    (hset : q.interest c.fd = some (mask, address)) : mask = c'.events := by
  obtain ⟨index, rfl⟩ := updateChannel_channel h
  unfold EpollPoller.updateChannel at h
  have of_update {p₁ : EpollPoller} {operation : CtlOp} {d : Channel} (hfd : d.fd = c.fd)
      (hevents : d.events = c.events) (hop : p₁.update operation d = .ok q)
      (hne : operation = .add ∨ operation = .mod ∨ operation = .del) : mask = c.events := by
    rw [← hfd] at hset
    unfold EpollPoller.update at hop
    split at hop
    case h_5 | h_6 => contradiction
    case h_4 hnone =>
      obtain rfl := Except.ok.inj hop
      rw [hnone] at hset
      contradiction
    case h_3 =>
      obtain rfl := Except.ok.inj hop
      simp at hset
    all_goals
      obtain rfl := Except.ok.inj hop
      simp only [Function.update_self, Option.some.injEq, Prod.mk.injEq] at hset
      exact hset.1.symm.trans hevents
  split at h
  · obtain ⟨p₂, hop, hret⟩ := bind_eq_ok.mp h
    simp only [pure_eq_ok, Except.ok.injEq, Prod.mk.injEq] at hret
    obtain ⟨rfl, -⟩ := hret
    exact of_update (d := { c with index := .kAdded }) rfl rfl hop (.inl rfl)
  · split at h
    · obtain ⟨p₂, hop, hret⟩ := bind_eq_ok.mp h
      simp only [pure_eq_ok, Except.ok.injEq, Prod.mk.injEq] at hret
      obtain ⟨rfl, -⟩ := hret
      exact of_update (d := { c with index := .kDeleted }) rfl rfl hop (.inr (.inr rfl))
    · obtain ⟨p₂, hop, hret⟩ := bind_eq_ok.mp h
      simp only [pure_eq_ok, Except.ok.injEq, Prod.mk.injEq] at hret
      obtain ⟨rfl, -⟩ := hret
      exact of_update rfl rfl hop (.inr (.inl rfl))

namespace Io

variable {s s' : Io}

/-- The mask registered for the descriptor is the events of interest. -/
def Registered (s : Io) : Prop :=
  ∀ mask address, s.poller.interest s.conn.channel.fd = some (mask, address) →
    mask = s.conn.channel.events

/-- A function that leaves poller and channel alone. -/
theorem Registered.of_same (h : s.Registered) (hpoller : s'.poller = s.poller)
    (hchannel : s'.conn.channel = s.conn.channel) : s'.Registered := by
  unfold Registered
  rw [hpoller, hchannel]
  exact h

/-- A report to the poller registers the events it reports. -/
theorem Registered.of_polled (h : s.Registered) (hpolled : Polled s s') : s'.Registered := by
  obtain ⟨hpoller, hchannel⟩ | hupdate := hpolled
  · exact h.of_same hpoller hchannel
  · intro mask address hset
    obtain ⟨index, hchannel⟩ := EpollPoller.updateChannel_channel hupdate
    rw [hchannel] at hset
    exact EpollPoller.updateChannel_interest hupdate hset

/-- Closing registers nothing, or nothing of interest. -/
theorem registered_of_closedAfter {new : List Effect} (h : ClosedAfter s s' new) :
    s'.Registered := by
  obtain ⟨p, index, hupdate, rfl⟩ := h
  exact fun mask address hset => EpollPoller.updateChannel_interest hupdate hset

/-- `sendInLoop` reports what it registers. -/
theorem Registered.of_sendInLoop (h : s.Registered) {msg : Message} {w : WriteResult}
    {log : ErrnoTrail} (hgood : s.Good) (hfits : w.fits msg.bytes.length = true)
    (hs : s.sendInLoop msg w log = .ok s') : s'.Registered := by
  rcases sendInLoop_cases hgood.output hfits hs with
    ⟨-, rfl⟩ | ⟨-, -, -, new, -, hclose⟩ | ⟨-, -, -, hsent⟩ | ⟨-, -, hsent⟩
  · exact h
  · exact registered_of_closedAfter hclose
  · exact h.of_polled hsent.polled
  · exact h.of_polled hsent.polled

/-- Every call reports what it registers. -/
theorem Registered.step (h : s.Registered) (hgood : s.Good) {call : ConnCall}
    (hs : callStep s call = some s') : s'.Registered := by
  obtain ⟨hlegal, hexec⟩ := callStep_eq_some.mp hs
  cases call with
  | send msg w log =>
    simp only [ConnCall.exec, send] at hexec
    split at hexec
    · exact h.of_sendInLoop hgood hlegal hexec
    · exact Except.ok.inj hexec ▸ h
  | sendInLoop msg w log => exact h.of_sendInLoop hgood hlegal hexec
  | shutdown =>
    obtain rfl := Except.ok.inj hexec
    unfold shutdown shutdownInLoop
    split
    · split <;> exact h.of_same rfl rfl
    · exact h
  | handleRead r =>
    rcases handleRead_cases hgood.input hexec with
      ⟨-, -, rfl⟩ | ⟨-, input, -, hclose⟩ | ⟨bytes, rfl, -, hread⟩
    · exact h
    · exact registered_of_closedAfter hclose
    · obtain ⟨input, -, -, rfl⟩ := hread (by simpa [ConnCall.legal] using hlegal)
      exact h.of_same rfl rfl
  | handleWrite w =>
    rcases handleWrite_cases hgood.output hlegal hexec with
      ⟨-, hdrain⟩ | ⟨-, out, -, -, -, new, -, -, rfl⟩
    · exact h.of_polled hdrain.polled
    · exact h.of_same rfl rfl
  | retrieve len => exact Except.ok.inj hexec ▸ h.of_same rfl rfl

end Io

/-- The established connection is registered for reading. -/
theorem Opening.established_registered (o : Opening) : o.established.Registered := by
  intro mask address hset
  simp only [established, Function.update_self, Option.some.injEq, Prod.mk.injEq] at hset
  exact hset.1.symm

/-- What a step gives to `sendInLoop`. -/
def LinkLabel.given (s : Io) : LinkLabel → List UInt8
  | .call c => c.given s
  | _ => []

/-- The step is not a direct `::write` that fails, unless the offset does no harm there. -/
def LinkLabel.harmless (s : Stream) : LinkLabel → Prop
  | .call c => offsetHarmless s c
  | _ => True

/-- The call makes a direct `::write` that fails for good. -/
def ConnCall.closesByWrite : ConnCall → Bool
  | .send _ w log | .sendInLoop _ w log => w.closes log
  | _ => false

/-- The call is the label's own, or one that the dispatch of an event makes. -/
def ConnCall.isDispatched (label : LinkLabel) : ConnCall → Prop
  | .handleRead _ | .handleWrite _ => True
  | c => label = .call c

/-- A call on its own is the label's. -/
theorem ConnCall.isDispatched_call (c : ConnCall) : c.isDispatched (.call c) := by
  cases c <;> first | rfl | trivial

/-- The calls from outside the dispatch do not close. -/
theorem ConnCall.not_closesByWrite {c : ConnCall} (h : c.isUser = true) :
    c.closesByWrite = false := by
  cases c <;> simp_all [ConnCall.isUser, ConnCall.closesByWrite]

namespace Link

variable {s s' : Link}

/-- A poll reports an event and touches nothing else. -/
theorem step_poll {writable : Bool} (h : s.step (.poll writable) = some s') :
    s.phase = .idle ∧ ∃ revents, s.report writable = some revents ∧
      s' = { s with phase := .reported revents } := by
  unfold step at h
  dsimp only at h
  split at h
  · rename_i hphase
    obtain ⟨revents, hreport, rfl⟩ := Option.map_eq_some_iff.mp h
    exact ⟨hphase, revents, hreport, rfl⟩
  · contradiction
  · contradiction

/-- The first half of a dispatch. -/
theorem step_eventRead {r : ReadResult} (h : s.step (.eventRead r) = some s') :
    ∃ revents io, s.phase = .reported revents ∧ s.answers r = true ∧
      s.io.handleEventRead revents r = .ok io ∧ s' = { s with
        io := io
        unread := s.unread.drop (readCount revents r)
        phase := .reading revents } := by
  unfold step at h
  dsimp only at h
  split at h
  · rename_i revents hphase
    split at h
    · rename_i hanswer
      obtain ⟨io, hio, rfl⟩ := Option.map_eq_some_iff.mp h
      exact ⟨revents, io, hphase, hanswer, toOption_eq_some.mp hio, rfl⟩
    · contradiction
  · contradiction
  · contradiction

/-- The second half of a dispatch. -/
theorem step_eventWrite {w : WriteResult} (h : s.step (.eventWrite w) = some s') :
    ∃ revents io, s.phase = .reading revents ∧
      w.fits s.io.conn.outputBuffer.readableBytes = true ∧
      s.io.handleEventWrite revents w = .ok io ∧ s' = { s with io := io, phase := .idle } := by
  unfold step at h
  dsimp only at h
  split at h
  · rename_i revents hphase
    split at h
    · rename_i hfits
      obtain ⟨io, hio, rfl⟩ := Option.map_eq_some_iff.mp h
      exact ⟨revents, io, hphase, hfits, toOption_eq_some.mp hio, rfl⟩
    · contradiction
  · contradiction
  · contradiction

/-- A call of other code of the loop thread. -/
theorem step_call {c : ConnCall} (h : s.step (.call c) = some s') :
    c.isUser = true ∧ ∃ io, callStep s.io c = some io ∧ s' = { s with io := io } := by
  unfold step at h
  dsimp only at h
  split at h
  · rename_i huser
    obtain ⟨io, hio, rfl⟩ := Option.map_eq_some_iff.mp h
    exact ⟨huser, io, hio, rfl⟩
  · contradiction

/-- Bytes arrive only in front of the end of the stream. -/
theorem step_peerSend {bytes : List UInt8} (h : s.step (.peerSend bytes) = some s') :
    s.fin = false ∧ s' = { s with sent := s.sent ++ bytes, unread := s.unread ++ bytes } := by
  unfold step at h
  dsimp only at h
  split at h
  · contradiction
  · rename_i hfin
    exact ⟨Bool.not_eq_true _ ▸ hfin, (Option.some.inj h).symm⟩

/-- The end of the stream arrives once. -/
theorem step_peerFin (h : s.step .peerFin = some s') : s.fin = false ∧ s' = { s with fin := true } := by
  unfold step at h
  dsimp only at h
  split at h
  · contradiction
  · rename_i hfin
    exact ⟨Bool.not_eq_true _ ▸ hfin, (Option.some.inj h).symm⟩

/-- A legal answer of `::readv` makes a legal `handleRead`. -/
theorem legal_of_answers {r : ReadResult} (h : s.answers r = true) :
    (ConnCall.handleRead r).legal s.io = true := by
  cases r with
  | failed errno => rfl
  | received bytes =>
    simp only [answers, Bool.and_eq_true] at h
    exact h.1.2

/-- A step leaves the connection alone or closes it, or is a call on it. -/
theorem step_io {label : LinkLabel} (h : s.step label = some s') (given : List UInt8) :
    (s'.io = s.io ∨ s.io.handleClose = .ok s'.io) ∧ label.given s.io = [] ∧
        label.harmless ⟨s.io, given⟩ ∨
      ∃ c, callStep s.io c = some s'.io ∧ c.closesByWrite = false ∧ c.isDispatched label ∧
        label.given s.io = c.given s.io ∧
        (label.harmless ⟨s.io, given⟩ ↔ offsetHarmless ⟨s.io, given⟩ c) := by
  cases label with
  | peerSend bytes =>
    obtain ⟨-, rfl⟩ := step_peerSend h
    exact .inl ⟨.inl rfl, rfl, trivial⟩
  | peerFin =>
    obtain ⟨-, rfl⟩ := step_peerFin h
    exact .inl ⟨.inl rfl, rfl, trivial⟩
  | poll writable =>
    obtain ⟨-, revents, -, rfl⟩ := step_poll h
    exact .inl ⟨.inl rfl, rfl, trivial⟩
  | eventRead r =>
    obtain ⟨revents, io, -, hanswer, hio, rfl⟩ := step_eventRead h
    unfold Io.handleEventRead at hio
    split at hio
    · exact .inl ⟨.inl (Except.ok.inj hio).symm, rfl, trivial⟩
    · split at hio
      · exact .inl ⟨.inr hio, rfl, trivial⟩
      · split at hio
        · exact .inr ⟨.handleRead r, callStep_eq_some.mpr ⟨legal_of_answers hanswer, hio⟩, rfl, trivial,
            rfl, Iff.rfl⟩
        · exact .inl ⟨.inl (Except.ok.inj hio).symm, rfl, trivial⟩
  | eventWrite w =>
    obtain ⟨revents, io, -, hfits, hio, rfl⟩ := step_eventWrite h
    unfold Io.handleEventWrite at hio
    split at hio
    · exact .inl ⟨.inl (Except.ok.inj hio).symm, rfl, trivial⟩
    · split at hio
      · exact .inr ⟨.handleWrite w, callStep_eq_some.mpr ⟨hfits, hio⟩, rfl, trivial, rfl, Iff.rfl⟩
      · exact .inl ⟨.inl (Except.ok.inj hio).symm, rfl, trivial⟩
  | call c =>
    obtain ⟨huser, io, hio, rfl⟩ := step_call h
    exact .inr ⟨c, hio, ConnCall.not_closesByWrite huser, c.isDispatched_call, rfl, Iff.rfl⟩

/-- The connection of a link keeps the invariants of a call, and its record only grows. -/
theorem step_good {label : LinkLabel} (hgood : s.io.Good) (hstep : s.step label = some s') :
    s'.io.Good ∧ ∃ new, s'.io.effects = s.io.effects ++ new := by
  rcases step_io hstep [] with ⟨heq | hclose, -⟩ | ⟨c, hc, -⟩
  · rw [heq]
    exact ⟨hgood, [], by simp⟩
  · have hclosed := Io.handleClose_closed hclose
    refine ⟨hgood.of_closedAfter hclosed, ?_⟩
    obtain ⟨p, index, -, hio⟩ := hclosed
    rw [hio]
    exact ⟨_, List.append_assoc _ _ _⟩
  · exact ⟨hgood.step hc, hgood.effects_grow hc⟩

/-- The connection of a link stays registered with its interest. -/
theorem step_registered {label : LinkLabel} (hgood : s.io.Good) (h : s.io.Registered)
    (hstep : s.step label = some s') : s'.io.Registered := by
  rcases step_io hstep [] with ⟨heq | hclose, -⟩ | ⟨c, hc, -⟩
  · rwa [heq]
  · exact Io.registered_of_closedAfter (Io.handleClose_closed hclose)
  · exact h.step hgood hc

end Link

end CcMuduo
