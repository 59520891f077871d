import CcMuduo.TcpConnection.Delivery
import CcMuduo.TcpConnection.LinkSteps

/-!
# Two connections end to end

Both ends of one TCP connection, each run by this library on a loop of its own, with the network
between them: what one end has written arrives at the other in order, any part at a time, and the end
of the stream behind the last byte once the writing end has shut its direction or closed. The network
never fails: no end sees a reset, and no direct write of a send fails for good.

What an end was given to send is at every moment split, in order, over the places on the way: delivered
by the other end, unread in its kernel, in flight, and waiting in `outputBuffer`.
-/

namespace CcMuduo

open Foundation

/-- What was given to `sendInLoop` begins with what the kernel has taken and what is buffered, and is
no more than that until `handleClose` has run. -/
structure Whole (s : Stream) : Prop where
  begins : written s.io.effects ++ s.io.conn.outputBuffer.content <+: s.given
  intact : Intact s

/-- A call on a closed connection neither writes nor shuts, and leaves `outputBuffer` as it is. -/
theorem effects_of_closed {s s' : Io} {c : ConnCall} (hgood : s.Good)
    (hclosed : closed s.effects = true) (hs : callStep s c = some s') :
    ∃ new, s'.effects = s.effects ++ new ∧ written new = [] ∧ shut new = false ∧
      s'.conn.outputBuffer = s.conn.outputBuffer := by
  have hstate := hgood.closed_iff.mp hclosed
  obtain ⟨hlegal, hexec⟩ := callStep_eq_some.mp hs
  have of_same (h : s' = s) : ∃ new, s'.effects = s.effects ++ new ∧ written new = [] ∧
      shut new = false ∧ s'.conn.outputBuffer = s.conn.outputBuffer :=
    ⟨[], by rw [h, List.append_nil], rfl, rfl, by rw [h]⟩
  cases c with
  | send msg w log =>
    simp only [ConnCall.exec, Io.send, hstate, reduceCtorEq, if_false] at hexec
    exact of_same (Except.ok.inj hexec).symm
  | sendInLoop msg w log =>
    simp only [ConnCall.exec, Io.sendInLoop, hstate, if_true] at hexec
    exact of_same (Except.ok.inj hexec).symm
  | shutdown =>
    have heq : s.shutdown = s := if_neg (by simp [hstate])
    exact of_same ((Except.ok.inj hexec).symm.trans heq)
  | handleRead r =>
    rcases Io.handleRead_cases hgood.input hexec with
      ⟨-, -, rfl⟩ | ⟨-, input, -, p, index, -, rfl⟩ | ⟨bytes, rfl, -, hread⟩
    · exact of_same rfl
    · exact ⟨[.connectionCallback false, .closeCallback], by simp, rfl, rfl, rfl⟩
    · obtain ⟨input, -, -, rfl⟩ := hread (by simpa [ConnCall.legal] using hlegal)
      exact ⟨[.messageCallback input.content bytes.length], rfl, rfl, rfl, rfl⟩
  | handleWrite w =>
    have hwriting := hgood.closed_writing hclosed
    simp only [ConnCall.exec, Io.handleWrite, hwriting, Bool.false_eq_true, if_false] at hexec
    exact of_same (Except.ok.inj hexec).symm
  | retrieve len =>
    rw [← Except.ok.inj hexec]
    exact ⟨[], (List.append_nil _).symm, rfl, rfl, rfl⟩

/-- A call that closes, other than by a failed `::write`, writes nothing and leaves `outputBuffer` as
it is. -/
theorem written_of_closing {s s' : Io} {c : ConnCall} (hgood : s.Good)
    (hopen : closed s.effects = false) (hcloses : c.closesByWrite = false)
    (hs : callStep s c = some s') (hclosed : closed s'.effects = true) :
    written s'.effects ++ s'.conn.outputBuffer.content =
        written s.effects ++ s.conn.outputBuffer.content ∧ c.given s = [] := by
  have hsame (h : closed s'.effects = closed s.effects) : False := by
    rw [h, hopen] at hclosed
    contradiction
  obtain ⟨hlegal, hexec⟩ := callStep_eq_some.mp hs
  cases c with
  | send msg w log =>
    have huser := by simpa only [ConnCall.closesByWrite] using hcloses
    exact (hsame (delivery_of_call hgood (by simp [ConnCall.isUser, huser]) hs).2).elim
  | sendInLoop msg w log =>
    have huser := by simpa only [ConnCall.closesByWrite] using hcloses
    exact (hsame (delivery_of_call hgood (by simp [ConnCall.isUser, huser]) hs).2).elim
  | shutdown => exact (hsame (delivery_of_call hgood rfl hs).2).elim
  | retrieve len => exact (hsame (delivery_of_call hgood rfl hs).2).elim
  | handleRead r =>
    refine ⟨?_, rfl⟩
    rcases Io.handleRead_cases hgood.input hexec with
      ⟨-, -, rfl⟩ | ⟨-, input, -, p, index, -, rfl⟩ | ⟨bytes, rfl, -, hread⟩
    · rfl
    · simp [written]
    · obtain ⟨input, -, -, rfl⟩ := hread (by simpa [ConnCall.legal] using hlegal)
      simp [written]
  | handleWrite w =>
    rcases Io.handleWrite_cases hgood.output hlegal hexec with
      ⟨-, hdrain⟩ | ⟨-, out, -, -, -, new, hsend, -, rfl⟩
    · exact (hsame (delivery_of_sends hdrain.sends).2).elim
    · exact (hsame (delivery_of_sends ⟨new, rfl, hsend⟩).2).elim

/-- One call keeps the stream whole exactly when the offset does no harm. -/
theorem Whole.of_call {s : Stream} {io : Io} {c : ConnCall} (hgood : s.io.Good) (h : Whole s)
    (hcloses : c.closesByWrite = false) (hs : callStep s.io c = some io) :
    Whole ⟨io, s.given ++ c.given s.io⟩ ↔ offsetHarmless s c := by
  have hstep : streamStep s c = some ⟨io, s.given ++ c.given s.io⟩ := by
    rw [streamStep, hs]
    rfl
  rw [← streamStep_intact_iff hgood h.intact hstep]
  refine ⟨Whole.intact, fun hintact => ⟨?_, hintact⟩⟩
  cases hclosed' : closed io.effects with
  | false => exact (hintact hclosed') ▸ List.prefix_rfl
  | true =>
    cases hclosed : closed s.io.effects with
    | true =>
      change written io.effects ++ io.conn.outputBuffer.content <+: _
      obtain ⟨new, heffects, hwritten, -, houtput⟩ := effects_of_closed hgood hclosed hs
      rw [heffects, written_append, hwritten, List.append_nil, houtput]
      exact h.begins.trans (List.prefix_append _ _)
    | false =>
      change written io.effects ++ io.conn.outputBuffer.content <+: _
      rw [(written_of_closing hgood hclosed hcloses hs hclosed').1]
      exact h.begins.trans (List.prefix_append _ _)

namespace Link

variable {s s' : Link}

/-- One step of a link keeps its stream whole exactly when the offset does no harm. -/
theorem whole_iff {given : List UInt8} {label : LinkLabel} (hgood : s.io.Good)
    (h : Whole ⟨s.io, given⟩) (hstep : s.step label = some s') :
    Whole ⟨s'.io, given ++ label.given s.io⟩ ↔ label.harmless ⟨s.io, given⟩ := by
  rcases step_io hstep given with ⟨hio, hgiven, hharmless⟩ | ⟨c, hc, hcloses, -, hgiven, hharmless⟩
  · refine iff_of_true ?_ hharmless
    rw [hgiven, List.append_nil]
    obtain heq | hclose := hio
    · rwa [heq]
    · have hclosed := Io.handleClose_closed hclose
      refine ⟨?_, fun hopen => ?_⟩
      · obtain ⟨p, index, -, hs'⟩ := hclosed
        rw [hs']
        simpa [written] using h.begins
      · rw [hclosed.closed] at hopen
        contradiction
  · rw [hgiven, hharmless]
    exact h.of_call hgood hcloses hc

/-- Every step keeps the invariant of a link, also one that loses what is unread. -/
theorem Inv.keep (h : s.Inv) {label : LinkLabel} (hstep : s.step label = some s') : s'.Inv := by
  cases label with
  | eventRead r =>
    obtain ⟨revents, io, hphase, hanswer, hio, rfl⟩ := step_eventRead hstep
    obtain ⟨herr, hhup, -⟩ := h.mask revents (.inl hphase)
    unfold Io.handleEventRead at hio
    rw [if_neg (by simp [herr]), hhup] at hio
    cases hhang : hasAny revents EPOLLHUP with
    | true =>
      rw [if_pos hhang] at hio
      have hcount : readCount revents r = 0 := by simp [readCount, hhup, hhang]
      rw [hcount, List.drop_zero]
      exact (h.of_hangup hphase hhang hio).1
    | false =>
      rw [if_neg (by simp [hhang])] at hio
      split at hio
      · rename_i hin
        have hcount : readCount revents r = r.count := by simp [readCount, herr, hhup, hhang, hin]
        obtain ⟨hgood, hstream, hclosed⟩ := h.of_read hanswer hio
        rw [hcount]
        exact ⟨hgood, hstream, fun hc => (hclosed hc).elim h.ended And.left, h.reading_mask hphase⟩
      · rename_i hin
        obtain rfl := Except.ok.inj hio
        have hcount : readCount revents r = 0 := by simp [readCount, hin]
        rw [hcount, List.drop_zero]
        exact ⟨h.good, h.stream, h.ended, h.reading_mask hphase⟩
  | peerSend bytes =>
    obtain ⟨-, rfl⟩ := step_peerSend hstep
    refine ⟨h.good, ?_, h.ended, h.mask⟩
    simp [h.stream]
  | peerFin =>
    obtain ⟨-, rfl⟩ := step_peerFin hstep
    refine ⟨h.good, h.stream, fun _ => rfl, fun revents hphase => ?_⟩
    exact ⟨(h.mask revents hphase).1, (h.mask revents hphase).2.1, fun _ => rfl⟩
  | poll writable =>
    obtain ⟨-, revents, hreport, rfl⟩ := step_poll hstep
    refine ⟨h.good, h.stream, h.ended, ?_⟩
    rintro m (hm | hm)
    · rw [← EventPhase.reported.inj hm]
      exact report_mask hreport
    · contradiction
  | eventWrite w =>
    obtain ⟨revents, io, -, hfits, hio, rfl⟩ := step_eventWrite hstep
    obtain ⟨hgood, hdelivered, hclosed⟩ := delivery_of_eventWrite h.good hfits hio
    refine ⟨hgood, hdelivered ▸ h.stream, hclosed ▸ h.ended, ?_⟩
    rintro m (hm | hm) <;> contradiction
  | call c =>
    obtain ⟨huser, io, hio, rfl⟩ := step_call hstep
    obtain ⟨hdelivered, hclosed⟩ := delivery_of_call h.good huser hio
    exact ⟨h.good.step hio, hdelivered ▸ h.stream, hclosed ▸ h.ended, h.mask⟩

end Link

/-- The two ends of a TCP connection. -/
inductive Endpoint where
  | client
  | server
  deriving DecidableEq, Repr

/-- The other end. -/
def Endpoint.peer : Endpoint → Endpoint
  | .client => .server
  | .server => .client

@[simp] theorem Endpoint.peer_peer (e : Endpoint) : e.peer.peer = e := by
  cases e <;> rfl

/-- An end is not its peer. -/
theorem Endpoint.peer_ne (e : Endpoint) : e.peer ≠ e := by
  cases e <;> decide

/-- An end and what is not it. -/
theorem Endpoint.eq_peer {e other : Endpoint} (h : other ≠ e) : other = e.peer := by
  cases e <;> cases other <;> simp_all [peer]

/-- Both ends of a connection, with what each was given to send. -/
structure Pair where
  link : Endpoint → Link
  given : Endpoint → List UInt8

/-- What can happen to a pair: a step of one end on its own, and what was written at the other end
arriving at an end. -/
inductive PairLabel where
  | own (e : Endpoint) (label : LinkLabel)
  | arrive (e : Endpoint) (count : ℕ)
  | arriveFin (e : Endpoint)

/-- The steps in which nothing arrives. -/
def LinkLabel.isOwn : LinkLabel → Bool
  | .peerSend _ | .peerFin => false
  | .poll _ | .eventRead _ | .eventWrite _ | .call _ => true

namespace Pair

variable (s : Pair)

/-- What was written at the other end and has not arrived at this one. -/
def inFlight (e : Endpoint) : List UInt8 :=
  (written (s.link e.peer).io.effects).drop (s.link e).sent.length

/-- The other end writes no more: its direction is shut, or it is closed. -/
def finished (e : Endpoint) : Bool :=
  shut (s.link e.peer).io.effects || closed (s.link e.peer).io.effects

/-- A step of one end. -/
def advance (e : Endpoint) (label : LinkLabel) : Option Pair :=
  ((s.link e).step label).map fun link => {
    link := Function.update s.link e link
    given := Function.update s.given e (s.given e ++ label.given (s.link e).io) }

/-- One step of a pair. -/
def step (s : Pair) : PairLabel → Option Pair
  | .own e label => if label.isOwn then s.advance e label else none
  | .arrive e count => s.advance e (.peerSend ((s.inFlight e).take count))
  | .arriveFin e =>
    if s.inFlight e = [] ∧ s.finished e = true then s.advance e .peerFin else none

/-- What an end was given to send is delivered, unread, in flight or buffered, in this order. Only
behind `handleClose` of that end can something be missing, and only behind the rest. -/
def EndToEnd (s : Pair) : Prop :=
  ∀ e : Endpoint,
    delivered (s.link e).io.effects ++ (s.link e).unread ++ s.inFlight e ++
        (s.link e.peer).io.conn.outputBuffer.content <+: s.given e.peer ∧
      (closed (s.link e.peer).io.effects = false →
        delivered (s.link e).io.effects ++ (s.link e).unread ++ s.inFlight e ++
          (s.link e.peer).io.conn.outputBuffer.content = s.given e.peer)

/-- The step is not a direct `::write` that fails, unless the offset does no harm there. -/
def harmless (s : Pair) : PairLabel → Prop
  | .own e label => label.harmless ⟨(s.link e).io, s.given e⟩
  | .arrive _ _ | .arriveFin _ => True

/-- What every step keeps: the invariants of both ends, and that nothing arrives but what was
written. -/
structure Inv (s : Pair) : Prop where
  link : ∀ e, (s.link e).Inv
  wire : ∀ e, (s.link e).sent <+: written (s.link e.peer).io.effects

variable {s} {s' : Pair}

/-- What has arrived and what is in flight is what was written. -/
theorem Inv.sent_inFlight (h : s.Inv) (e : Endpoint) :
    delivered (s.link e).io.effects ++ (s.link e).unread ++ s.inFlight e =
      written (s.link e.peer).io.effects := by
  rw [← (h.link e).stream, inFlight]
  exact (List.prefix_iff_eq_append.mp (h.wire e))

/-- The places on the way hold what was given exactly when both streams are whole. -/
theorem Inv.endToEnd_iff (h : s.Inv) :
    s.EndToEnd ↔ ∀ e, Whole ⟨(s.link e).io, s.given e⟩ := by
  simp only [EndToEnd, h.sent_inFlight]
  constructor
  · intro hend e
    have := hend e.peer
    rw [Endpoint.peer_peer] at this
    exact ⟨this.1, this.2⟩
  · intro hwhole e
    exact ⟨(hwhole e.peer).begins, (hwhole e.peer).intact⟩

/-- A step of one end keeps the invariant, when nothing arrives that was not written. -/
theorem Inv.advance (h : s.Inv) {e : Endpoint} {label : LinkLabel} (hstep : s.advance e label = some s')
    (harrive : ∀ link, (s.link e).step label = some link →
      link.sent <+: written (s.link e.peer).io.effects) : s'.Inv := by
  obtain ⟨link, hlink, rfl⟩ := Option.map_eq_some_iff.mp hstep
  obtain ⟨-, new, hnew⟩ := Link.step_good (h.link e).good hlink
  refine ⟨fun other => ?_, fun other => ?_⟩
  · by_cases hother : other = e
    · subst hother
      simpa using (h.link other).keep hlink
    · simpa [hother] using h.link other
  · by_cases hother : other = e
    · subst hother
      simpa [Endpoint.peer_ne] using harrive link hlink
    · obtain rfl := Endpoint.eq_peer hother
      have := h.wire e.peer
      rw [Endpoint.peer_peer] at this
      simpa [Endpoint.peer_ne, hnew] using this.trans (List.prefix_append _ _)

/-- A step that arrives nothing leaves `sent` alone. -/
theorem sent_of_own {link link' : Link} {label : LinkLabel} (hown : label.isOwn = true)
    (hstep : link.step label = some link') : link'.sent = link.sent := by
  cases label with
  | peerSend | peerFin => contradiction
  | poll writable =>
    obtain ⟨-, revents, -, rfl⟩ := Link.step_poll hstep
    rfl
  | eventRead r =>
    obtain ⟨revents, io, -, -, -, rfl⟩ := Link.step_eventRead hstep
    rfl
  | eventWrite w =>
    obtain ⟨revents, io, -, -, -, rfl⟩ := Link.step_eventWrite hstep
    rfl
  | call c =>
    obtain ⟨-, io, -, rfl⟩ := Link.step_call hstep
    rfl

/-- A step of a pair is a step of one end, in which nothing arrives that was not written. -/
theorem advance_of_step (h : s.Inv) {label : PairLabel} (hstep : s.step label = some s') :
    ∃ e l, s.advance e l = some s' ∧
      (s.harmless label ↔ l.harmless ⟨(s.link e).io, s.given e⟩) ∧
      ∀ link, (s.link e).step l = some link →
        link.sent <+: written (s.link e.peer).io.effects := by
  cases label with
  | own e l =>
    simp only [step] at hstep
    split at hstep
    · rename_i hown
      refine ⟨e, l, hstep, Iff.rfl, fun link hlink => ?_⟩
      rw [sent_of_own hown hlink]
      exact h.wire e
    · contradiction
  | arrive e count =>
    refine ⟨e, _, hstep, Iff.rfl, fun link hlink => ?_⟩
    obtain ⟨-, rfl⟩ := Link.step_peerSend hlink
    change (s.link e).sent ++ (s.inFlight e).take count <+: _
    have hsplit := List.prefix_iff_eq_append.mp (h.wire e)
    rw [← hsplit]
    exact (List.prefix_append_right_inj _).mpr (List.take_prefix _ _)
  | arriveFin e =>
    simp only [step] at hstep
    split at hstep
    · refine ⟨e, _, hstep, Iff.rfl, fun link hlink => ?_⟩
      obtain ⟨-, rfl⟩ := Link.step_peerFin hlink
      exact h.wire e
    · contradiction

/-- A step of one end in which nothing arrives that was not written keeps the invariant, and with it
what is end to end exactly when the offset of a failed `::write` does no harm. -/
theorem Inv.advance_endToEnd (h : s.Inv) (hend : s.EndToEnd) {e : Endpoint} {label : LinkLabel}
    (hstep : s.advance e label = some s')
    (harrive : ∀ link, (s.link e).step label = some link →
      link.sent <+: written (s.link e.peer).io.effects) :
    s'.Inv ∧ (s'.EndToEnd ↔ label.harmless ⟨(s.link e).io, s.given e⟩) := by
  have h' := h.advance hstep harrive
  refine ⟨h', ?_⟩
  rw [h'.endToEnd_iff]
  rw [h.endToEnd_iff] at hend
  obtain ⟨link, hlink, rfl⟩ := Option.map_eq_some_iff.mp hstep
  rw [← Link.whole_iff (h.link e).good (hend e) hlink]
  constructor
  · intro hall
    simpa using hall e
  · intro hwhole other
    by_cases hother : other = e
    · subst hother
      simpa using hwhole
    · simpa [hother] using hend other

/-- One step of a pair keeps the invariant, and with it what is end to end exactly when the offset of
a failed `::write` does no harm. -/
theorem Inv.step (h : s.Inv) (hend : s.EndToEnd) {label : PairLabel} (hstep : s.step label = some s') :
    s'.Inv ∧ (s'.EndToEnd ↔ s.harmless label) := by
  obtain ⟨e, l, hadvance, hharmless, harrive⟩ := advance_of_step h hstep
  rw [hharmless]
  exact h.advance_endToEnd hend hadvance harrive

end Pair

/-- Both ends when their `connectEstablished` starts the connection callback. -/
def Pair.opened (o : Endpoint → Opening) : Pair where
  link e := .opened (o e)
  given _ := []

/-- Nothing is on the way in a new pair. -/
theorem Pair.opened_endToEnd (o : Endpoint → Opening) :
    (Pair.opened o).Inv ∧ (Pair.opened o).EndToEnd := by
  have h : (Pair.opened o).Inv :=
    ⟨fun e => (opened_inv (o e)).1, fun e => List.nil_prefix⟩
  refine ⟨h, h.endToEnd_iff.mpr fun e => ?_⟩
  have hempty : written (o e).established.effects ++
      (o e).established.conn.outputBuffer.content = [] := by
    simp [written, Opening.established, Opening.constructed]
  exact ⟨hempty ▸ List.nil_prefix, fun _ => hempty⟩

/-- In every interleaving of the two loops and the network, what each end was given to send is split
over the places on the way, without loss, repetition or reordering, exactly when at every direct
`::write` that fails and leaves its message to be kept the message consists of copies of the byte in
front of it. -/
theorem pair_endToEnd_iff (o : Endpoint → Opening) (labels : List PairLabel) :
    Everywhere Pair.step Pair.EndToEnd (Pair.opened o) labels ↔
      Along Pair.step Pair.harmless (Pair.opened o) labels := by
  refine everywhere_iff_along (I := fun s : Pair => s.Inv ∧ s.EndToEnd) (fun s h => h.2) ?_ ?_
    labels (Pair.opened_endToEnd o)
  · intro s label s' hs hharmless hstep
    obtain ⟨h, hend⟩ := hs
    obtain ⟨h', hiff⟩ := h.step hend hstep
    exact ⟨h', hiff.mpr hharmless⟩
  · intro s label s' hs hharmful hstep hend'
    obtain ⟨h, hend⟩ := hs
    exact hharmful ((h.step hend hstep).2.mp hend')

end CcMuduo
