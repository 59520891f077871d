import CcMuduo.TcpConnection.Pair

/-!
# The end of a stream

An end that shuts its direction has written everything it was given: `shutdownInLoop` closes the write
side only when the write interest is off, and then nothing waits in `outputBuffer`. When the end of the
stream arrives at the other end, everything in front of it has arrived, in whatever order the loops and
the network have taken their steps. So what is delivered to a peer that reads to the end of a stream
shut by `shutdown` is the whole of what was sent.
-/

namespace CcMuduo

open Foundation

/-- Nothing is passed to `sendInLoop` behind the shutdown of the write side; there the kernel would answer
`EPIPE`. -/
def Io.orderly (s : Io) : ConnCall → Bool
  | .sendInLoop _ _ _ => !shut s.effects
  | .send _ _ _ | .shutdown | .handleRead _ | .handleWrite _ | .retrieve _ => true

/-- What is unsent turns the write interest on, and a write side that was shut has nothing unsent and
nothing more to come. -/
structure Io.Ends (s : Io) (given : List UInt8) : Prop where
  unsent : s.conn.outputBuffer.content ≠ [] → closed s.effects = false →
    s.conn.channel.isWriting = true
  half : shut s.effects = true → closed s.effects = false →
    s.conn.state = .kDisconnecting ∧ s.conn.channel.isWriting = false
  whole : shut s.effects = true → written s.effects = given

namespace Io

variable {s s' : Io} {given : List UInt8}

/-- Behind the shutdown the write interest is off, whether the connection is open or closed. -/
theorem Ends.not_writing (h : s.Ends given) (hgood : s.Good) (hshut : shut s.effects = true) :
    s.conn.channel.isWriting = false := by
  cases hclosed : closed s.effects with
  | true => exact hgood.closed_writing hclosed
  | false => exact (h.half hshut hclosed).2

/-- A connected connection has not shut its write side. -/
theorem Ends.not_shut (h : s.Ends given) (hgood : s.Good) (hstate : s.conn.state = .kConnected) :
    shut s.effects = false := by
  by_contra hne
  have hclosed : closed s.effects = false := by
    rw [← Bool.not_eq_true, hgood.closed_iff, hstate]
    simp
  have hhalf := (h.half (by simpa using hne) hclosed).1
  rw [hstate] at hhalf
  contradiction

/-- Sending on an open write side. -/
theorem Ends.of_sent {taken rest : List UInt8} (h : s.Ends given) (hshut : shut s.effects = false)
    (hopen : closed s.effects = false) (hsent : Sent s s' taken rest) (given' : List UInt8) :
    s'.Ends given' := by
  obtain ⟨new, hnew, hsend⟩ := hsent.sends
  have hshut' : shut s'.effects = false := by
    rw [hnew, shut_append, hshut, shut_of_isSend hsend, Bool.or_false]
  refine ⟨fun hcontent _ => ?_, fun hs => by simp [hshut'] at hs, fun hs => by simp [hshut'] at hs⟩
  rw [hsent.writing, Bool.or_eq_true]
  rw [hsent.content] at hcontent
  by_cases hold : s.conn.outputBuffer.content = []
  · right
    rw [hold, List.nil_append] at hcontent
    simpa using hcontent
  · exact .inl (h.unsent hold hopen)

/-- `handleClose`. -/
theorem Ends.of_closedAfter (h : s.Ends given) (hclose : ClosedAfter s s' []) : s'.Ends given := by
  have hclosed := hclose.closed
  obtain ⟨p, index, -, rfl⟩ := hclose
  refine ⟨fun _ hopen => ?_, fun _ hopen => ?_, fun hshut => ?_⟩
  · rw [hclosed] at hopen
    contradiction
  · rw [hclosed] at hopen
    contradiction
  · have hbefore : shut s.effects = true := by simpa [shut] using hshut
    simpa [written] using h.whole hbefore

/-- A function that leaves state, channel and `outputBuffer` alone and neither writes, closes nor
shuts. -/
theorem Ends.of_same (h : s.Ends given) (hstate : s'.conn.state = s.conn.state)
    (hchannel : s'.conn.channel = s.conn.channel)
    (houtput : s'.conn.outputBuffer = s.conn.outputBuffer) (hclosed : closed s'.effects = closed s.effects)
    (hshut : shut s'.effects = shut s.effects) (hwritten : written s'.effects = written s.effects) :
    s'.Ends given := by
  constructor
  · rw [houtput, hclosed, hchannel]
    exact h.unsent
  · rw [hshut, hclosed, hstate, hchannel]
    exact h.half
  · rw [hshut, hwritten]
    exact h.whole

/-- `shutdown` closes the write side only when everything given is written. -/
theorem Ends.of_shutdown (h : s.Ends given) (hgood : s.Good) (hwhole : Whole ⟨s, given⟩) :
    s.shutdown.Ends given := by
  by_cases hstate : s.conn.state = .kConnected
  · have hopen : closed s.effects = false := by
      rw [← Bool.not_eq_true, hgood.closed_iff, hstate]
      simp
    have hshut := h.not_shut hgood hstate
    rw [shutdown, if_pos hstate]
    cases hwriting : s.conn.channel.isWriting with
    | true =>
      have heq : (s.setState .kDisconnecting).shutdownInLoop = s.setState .kDisconnecting := by
        simp [shutdownInLoop, setState, hwriting]
      rw [heq]
      exact ⟨fun _ _ => hwriting, fun hs => by simp [setState, hshut] at hs,
        fun hs => by simp [setState, hshut] at hs⟩
    | false =>
      have hempty : s.conn.outputBuffer.content = [] := by
        by_contra hne
        rw [h.unsent hne hopen] at hwriting
        contradiction
      have hwritten : written s.effects = given := by
        have hintact := hwhole.intact hopen
        rwa [hempty, List.append_nil] at hintact
      have heq : (s.setState .kDisconnecting).shutdownInLoop =
          (s.setState .kDisconnecting).emit (.shutdownWrite s.conn.outputBuffer.readableBytes) := by
        simp [shutdownInLoop, setState, hwriting]
      rw [heq]
      refine ⟨fun hne => absurd hempty hne, fun _ _ => ⟨rfl, hwriting⟩, fun _ => ?_⟩
      simpa [emit, setState, written] using hwritten
  · have heq : s.shutdown = s := if_neg hstate
    rwa [heq]

/-- `sendInLoop` on an open write side. -/
theorem Ends.of_sendInLoop (h : s.Ends given) (hgood : s.Good) {msg : Message} {w : WriteResult}
    {log : ErrnoTrail} (hfits : w.fits msg.bytes.length = true) (hcloses : w.closes log = false)
    (hshut : shut s.effects = false) (hs : s.sendInLoop msg w log = .ok s') (given' : List UInt8) :
    s'.Ends given' := by
  have hopen (hstate : s.conn.state ≠ .kDisconnected) : closed s.effects = false := by
    rw [← Bool.not_eq_true, hgood.closed_iff]
    exact hstate
  rcases sendInLoop_cases hgood.output hfits hs with
    ⟨-, rfl⟩ | ⟨-, -, hclosing, -⟩ | ⟨hstate, -, -, hsent⟩ | ⟨hstate, -, hsent⟩
  · exact ⟨h.unsent, fun ht => by simp [hshut] at ht, fun ht => by simp [hshut] at ht⟩
  · rw [hcloses] at hclosing
    contradiction
  · exact h.of_sent hshut (hopen hstate) hsent given'
  · exact h.of_sent hshut (hopen hstate) hsent given'

/-- `handleWrite` drains an open write side only. -/
theorem Ends.of_handleWrite (h : s.Ends given) (hgood : s.Good) {w : WriteResult}
    (hfits : w.fits s.conn.outputBuffer.readableBytes = true) (hs : s.handleWrite w = .ok s') :
    s'.Ends given := by
  rcases handleWrite_cases hgood.output hfits hs with
    ⟨hdrains, hdrain⟩ | ⟨-, out, -, -, hempty, new, hsend, hnew, rfl⟩
  · have hshut : shut s'.effects = false := by
      obtain ⟨new, hnew, hsend⟩ := hdrain.sends
      rw [hnew, shut_append, shut_of_isSend hsend, Bool.or_false]
      by_contra hne
      have hwriting := h.not_writing hgood (by simpa using hne)
      rw [hdrains.1] at hwriting
      contradiction
    exact ⟨fun hne => absurd hdrain.content hne, fun ht => by simp [hshut] at ht,
      fun ht => by simp [hshut] at ht⟩
  · have hclosed : closed (s.effects ++ new) = closed s.effects := by
      rw [closed_append, closed_of_isSend hsend, Bool.or_false]
    have hshut : shut (s.effects ++ new) = shut s.effects := by
      rw [shut_append, shut_of_isSend hsend, Bool.or_false]
    refine ⟨fun hne hopen => h.unsent (fun hs => hne (hempty.mpr hs)) (hclosed ▸ hopen),
      fun ht hopen => h.half (hshut ▸ ht) (hclosed ▸ hopen), fun ht => ?_⟩
    have hwriting := h.not_writing hgood (hshut ▸ ht)
    rw [written_append, hnew, moved, if_neg (by simp [hwriting]), List.append_nil]
    exact h.whole (hshut ▸ ht)

/-- An orderly call that is not closed by a `::write`. -/
theorem Ends.of_call (h : s.Ends given) (hgood : s.Good) (hwhole : Whole ⟨s, given⟩) {c : ConnCall}
    (horderly : s.orderly c = true) (hcloses : c.closesByWrite = false)
    (hs : callStep s c = some s') : s'.Ends (given ++ c.given s) := by
  obtain ⟨hlegal, hexec⟩ := callStep_eq_some.mp hs
  cases c with
  | send msg w log =>
    simp only [ConnCall.exec, send] at hexec
    split at hexec
    · rename_i hstate
      exact h.of_sendInLoop hgood hlegal hcloses (h.not_shut hgood hstate) hexec _
    · rename_i hstate
      simp only [ConnCall.given, if_neg hstate, List.append_nil]
      exact Except.ok.inj hexec ▸ h
  | sendInLoop msg w log =>
    exact h.of_sendInLoop hgood hlegal hcloses (by simpa [orderly] using horderly) hexec _
  | shutdown =>
    simp only [ConnCall.given, List.append_nil]
    rw [← Except.ok.inj hexec]
    exact h.of_shutdown hgood hwhole
  | handleWrite w =>
    simp only [ConnCall.given, List.append_nil]
    exact h.of_handleWrite hgood hlegal hexec
  | retrieve len =>
    simp only [ConnCall.given, List.append_nil]
    rw [← Except.ok.inj hexec]
    exact h.of_same rfl rfl rfl rfl rfl rfl
  | handleRead r =>
    simp only [ConnCall.given, List.append_nil]
    rcases handleRead_cases hgood.input hexec with
      ⟨-, -, rfl⟩ | ⟨-, input, -, hclose⟩ | ⟨bytes, rfl, -, hread⟩
    · exact h
    · have hread : Ends { s with conn := { s.conn with inputBuffer := input } } given :=
        h.of_same rfl rfl rfl rfl rfl rfl
      exact hread.of_closedAfter hclose
    · obtain ⟨input, -, -, rfl⟩ := hread (by simpa [ConnCall.legal] using hlegal)
      exact h.of_same rfl rfl rfl (by simp [closed]) (by simp [shut]) (by simp [written])

/-- Behind the shutdown nothing is given any more. -/
theorem Ends.given_of_shut (h : s.Ends given) (hgood : s.Good) (hshut : shut s.effects = true)
    {c : ConnCall} (horderly : s.orderly c = true) : c.given s = [] := by
  cases c with
  | send msg w log =>
    refine if_neg fun hstate => ?_
    rw [h.not_shut hgood hstate] at hshut
    contradiction
  | sendInLoop msg w log => simp [orderly, hshut] at horderly
  | shutdown | handleRead r | handleWrite w | retrieve len => rfl

end Io

/-- The label is no late `sendInLoop`. -/
def LinkLabel.orderly (s : Io) : LinkLabel → Bool
  | .call c => s.orderly c
  | .peerSend _ | .peerFin | .poll _ | .eventRead _ | .eventWrite _ => true

/-- The call of an orderly label is orderly. -/
theorem ConnCall.isDispatched.orderly {s : Io} {c : ConnCall} {label : LinkLabel}
    (h : c.isDispatched label) (horderly : label.orderly s = true) : s.orderly c = true := by
  cases c with
  | sendInLoop msg w log =>
    obtain rfl := h
    exact horderly
  | send msg w log | shutdown | handleRead r | handleWrite w | retrieve len => rfl

namespace Link

variable {s s' : Link} {given : List UInt8}

/-- What an orderly step of a link does to its end: a shut write side stays whole, gives nothing more,
and a closed connection does not shut any more. -/
theorem ends_step {label : LinkLabel} (hgood : s.io.Good) (hends : s.io.Ends given)
    (hwhole : Whole ⟨s.io, given⟩) (horderly : label.orderly s.io = true)
    (hstep : s.step label = some s') :
    s'.io.Ends (given ++ label.given s.io) ∧
      (shut s.io.effects = true → label.given s.io = []) ∧
      (closed s.io.effects = true → shut s'.io.effects = shut s.io.effects) := by
  rcases step_io hstep given with ⟨hio, hgiven, -⟩ | ⟨c, hc, hcloses, hdispatched, hgiven, -⟩
  · rw [hgiven, List.append_nil]
    obtain heq | hclose := hio
    · rw [heq]
      exact ⟨hends, fun _ => rfl, fun _ => rfl⟩
    · have hclosed := Io.handleClose_closed hclose
      refine ⟨hends.of_closedAfter hclosed, fun _ => rfl, fun _ => ?_⟩
      obtain ⟨p, index, -, hs'⟩ := hclosed
      simp [hs', shut]
  · have hcall := hdispatched.orderly horderly
    rw [hgiven]
    refine ⟨hends.of_call hgood hwhole hcall hcloses hc,
      fun hshut => hends.given_of_shut hgood hshut hcall, fun hclosed => ?_⟩
    obtain ⟨new, heffects, -, hnew, -⟩ := effects_of_closed hgood hclosed hc
    rw [heffects, shut_append, hnew, Bool.or_false]

/-- Where the end of the stream comes from. -/
theorem fin_step {label : LinkLabel} (hstep : s.step label = some s') (hfin : s'.fin = true) :
    s'.sent = s.sent ∧ (s.fin = true ∨ label = .peerFin) := by
  cases label with
  | peerSend bytes =>
    obtain ⟨hopen, rfl⟩ := step_peerSend hstep
    rw [hopen] at hfin
    contradiction
  | peerFin =>
    obtain ⟨-, rfl⟩ := step_peerFin hstep
    exact ⟨rfl, .inr rfl⟩
  | poll writable =>
    obtain ⟨-, revents, -, rfl⟩ := step_poll hstep
    exact ⟨rfl, .inl hfin⟩
  | eventRead r =>
    obtain ⟨revents, io, -, -, -, rfl⟩ := step_eventRead hstep
    exact ⟨rfl, .inl hfin⟩
  | eventWrite w =>
    obtain ⟨revents, io, -, -, -, rfl⟩ := step_eventWrite hstep
    exact ⟨rfl, .inl hfin⟩
  | call c =>
    obtain ⟨-, io, -, rfl⟩ := step_call hstep
    exact ⟨rfl, .inl hfin⟩

end Link

namespace Pair

/-- Neither end passes anything to `sendInLoop` behind its shutdown. -/
def orderly (s : Pair) : PairLabel → Bool
  | .own e label => label.orderly (s.link e).io
  | .arrive _ _ | .arriveFin _ => true

/-- At each end, when the end of a stream that was shut has arrived, everything that was sent has been
delivered or is in the kernel to be read. -/
def EndsWhole (s : Pair) : Prop :=
  ∀ e : Endpoint, (s.link e).fin = true → shut (s.link e.peer).io.effects = true →
    delivered (s.link e).io.effects ++ (s.link e).unread = s.given e.peer

/-- What every orderly step keeps: what each end has shut is whole, and behind the end of a stream the
writing end has finished, with nothing in flight. -/
structure Graceful (s : Pair) : Prop where
  inv : s.Inv
  endToEnd : s.EndToEnd
  ends : ∀ e, (s.link e).io.Ends (s.given e)
  fin : ∀ e, (s.link e).fin = true → s.finished e = true
  arrived : ∀ e, (s.link e).fin = true → shut (s.link e.peer).io.effects = true →
    (s.link e).sent = s.given e.peer

variable {s s' : Pair}

/-- What has arrived is delivered or unread. -/
theorem Graceful.endsWhole (h : s.Graceful) : s.EndsWhole := by
  intro e hfin hshut
  rw [← (h.inv.link e).stream]
  exact h.arrived e hfin hshut

/-- When nothing is in flight, what has arrived is what was written. -/
theorem Inv.sent_of_inFlight (h : s.Inv) {e : Endpoint} (hempty : s.inFlight e = []) :
    (s.link e).sent = written (s.link e.peer).io.effects := by
  have hsplit := List.prefix_iff_eq_append.mp (h.wire e)
  rw [← hsplit]
  exact ((congrArg ((s.link e).sent ++ ·) hempty).trans (List.append_nil _)).symm

/-- A step of one end, in which nothing arrives that was not written and no end of the stream before
it. -/
theorem Graceful.advance (h : s.Graceful) {e : Endpoint} {label : LinkLabel}
    (hharmless : label.harmless ⟨(s.link e).io, s.given e⟩)
    (horderly : label.orderly (s.link e).io = true) (hstep : s.advance e label = some s')
    (harrive : ∀ link, (s.link e).step label = some link →
      link.sent <+: written (s.link e.peer).io.effects)
    (hend : label = .peerFin → s.inFlight e = [] ∧ s.finished e = true) : s'.Graceful := by
  obtain ⟨hinv, hiff⟩ := h.inv.advance_endToEnd h.endToEnd hstep harrive
  obtain ⟨link, hlink, rfl⟩ := Option.map_eq_some_iff.mp hstep
  have hwhole := h.inv.endToEnd_iff.mp h.endToEnd e
  have hgood := (h.inv.link e).good
  obtain ⟨hends, hgiven, hclosed⟩ := Link.ends_step hgood (h.ends e) hwhole horderly hlink
  obtain ⟨-, new, heffects⟩ := Link.step_good hgood hlink
  refine ⟨hinv, hiff.mpr hharmless, fun other => ?_, fun other => ?_, fun other => ?_⟩
  · by_cases hother : other = e
    · subst hother
      simpa using hends
    · simpa [hother] using h.ends other
  · by_cases hother : other = e
    · subst hother
      intro hfin
      simp only [Function.update_self] at hfin
      have hfinished : s.finished other = true := by
        rcases (Link.fin_step hlink hfin).2 with hbefore | rfl
        · exact h.fin other hbefore
        · exact (hend rfl).2
      simpa [finished, Endpoint.peer_ne] using hfinished
    · obtain rfl := Endpoint.eq_peer hother
      intro hfin
      have hfinished := h.fin e.peer (by simpa [Endpoint.peer_ne] using hfin)
      simp only [finished, Endpoint.peer_peer, Bool.or_eq_true] at hfinished
      simp only [finished, Endpoint.peer_peer, Function.update_self, heffects, shut_append,
        closed_append, Bool.or_eq_true]
      tauto
  · by_cases hother : other = e
    · subst hother
      intro hfin hshut
      simp only [Function.update_self, ne_eq, Endpoint.peer_ne, not_false_eq_true,
        Function.update_of_ne] at hfin hshut ⊢
      obtain ⟨hsent, hbefore | rfl⟩ := Link.fin_step hlink hfin
      · rw [hsent]
        exact h.arrived other hbefore hshut
      · rw [hsent, h.inv.sent_of_inFlight (hend rfl).1]
        exact (h.ends other.peer).whole hshut
    · obtain rfl := Endpoint.eq_peer hother
      intro hfin hshut
      simp only [ne_eq, Endpoint.peer_ne, not_false_eq_true, Function.update_of_ne,
        Endpoint.peer_peer, Function.update_self] at hfin hshut ⊢
      -- an end that had not shut yet had closed, and does not shut any more
      have hbefore : shut (s.link e).io.effects = true := by
        by_contra hne
        have hfinished := h.fin e.peer hfin
        rw [finished, Endpoint.peer_peer, Bool.or_eq_true] at hfinished
        rw [hclosed (hfinished.resolve_left hne)] at hshut
        exact hne hshut
      have harrived := h.arrived e.peer hfin (by rw [Endpoint.peer_peer]; exact hbefore)
      rw [Endpoint.peer_peer] at harrived
      rw [harrived, hgiven hbefore, List.append_nil]

/-- Every harmless and orderly step of a pair. -/
theorem Graceful.step (h : s.Graceful) {label : PairLabel} (hharmless : s.harmless label)
    (horderly : s.orderly label = true) (hstep : s.step label = some s') : s'.Graceful := by
  cases label with
  | own e l =>
    obtain ⟨hown, hadvance⟩ := Option.ite_none_right_eq_some.mp hstep
    refine h.advance hharmless horderly hadvance (fun link hlink => ?_) ?_
    · rw [sent_of_own hown hlink]
      exact h.inv.wire e
    · rintro rfl
      contradiction
  | arrive e count =>
    have hnone : (LinkLabel.peerSend ((s.inFlight e).take count)).harmless
        ⟨(s.link e).io, s.given e⟩ := trivial
    refine h.advance hnone rfl hstep (fun link hlink => ?_) (fun hl => by contradiction)
    obtain ⟨-, rfl⟩ := Link.step_peerSend hlink
    have hsplit := List.prefix_iff_eq_append.mp (h.inv.wire e)
    rw [← hsplit]
    exact (List.prefix_append_right_inj _).mpr (List.take_prefix _ _)
  | arriveFin e =>
    obtain ⟨hguard, hadvance⟩ := Option.ite_none_right_eq_some.mp hstep
    have hnone : LinkLabel.peerFin.harmless ⟨(s.link e).io, s.given e⟩ := trivial
    refine h.advance hnone rfl hadvance (fun link hlink => ?_) (fun _ => hguard)
    obtain ⟨-, rfl⟩ := Link.step_peerFin hlink
    exact h.inv.wire e

/-- Nothing has happened in a new pair. -/
theorem opened_graceful (o : Endpoint → Opening) : (Pair.opened o).Graceful := by
  obtain ⟨hinv, hend⟩ := Pair.opened_endToEnd o
  have hstart (e : Endpoint) : shut (o e).established.effects = false := rfl
  refine ⟨hinv, hend, fun e => ⟨fun hne => ?_, fun hs => ?_, fun hs => ?_⟩, fun e hfin => ?_,
    fun e hfin => ?_⟩
  · exact absurd Buffer.initial_content hne
  · exact absurd hs (by simp [Pair.opened, Link.opened, hstart])
  · exact absurd hs (by simp [Pair.opened, Link.opened, hstart])
  · contradiction
  · contradiction

end Pair

/-- In every interleaving of the two loops and the network in which no direct `::write` that fails
leaves a message to be kept, unless its offset does no harm, and nothing is passed to `sendInLoop` behind
the shutdown, the end of a stream that was shut is seen only behind everything that was sent. -/
theorem pair_endsWhole (o : Endpoint → Opening) (labels : List PairLabel)
    (h : Along Pair.step (fun s label => s.harmless label ∧ s.orderly label = true) (Pair.opened o)
      labels) :
    Everywhere Pair.step Pair.EndsWhole (Pair.opened o) labels :=
  everywhere_of_along (fun _ hs => hs.endsWhole)
    (fun _ _ _ hs hlabel hstep => hs.step hlabel.1 hlabel.2 hstep) (Pair.opened_graceful o) h

/-- Two bytes and the end of the stream arrive together, and the end is read behind the bytes. -/
theorem pair_endsWhole_twoBytes :
    ((run Pair.step (Pair.opened fun _ => Opening.fresh)
      [.own .client (.call (.send ⟨0, [104, 105], by decide⟩ (.accepted 2) ⟨id, id⟩)),
        .own .client (.call .shutdown), .arrive .server 2, .arriveFin .server,
        .own .server (.poll false), .own .server (.eventRead (.received [104, 105])),
        .own .server (.eventWrite (.accepted 0)), .own .server (.poll false),
        .own .server (.eventRead (.received []))]).map fun s =>
          (delivered (s.link .server).io.effects, closed (s.link .server).io.effects)) =
        some ([104, 105], true) ∧
    Everywhere Pair.step Pair.EndsWhole (Pair.opened fun _ => Opening.fresh)
      [.own .client (.call (.send ⟨0, [104, 105], by decide⟩ (.accepted 2) ⟨id, id⟩)),
        .own .client (.call .shutdown), .arrive .server 2, .arriveFin .server,
        .own .server (.poll false), .own .server (.eventRead (.received [104, 105])),
        .own .server (.eventWrite (.accepted 0)), .own .server (.poll false),
        .own .server (.eventRead (.received []))] := by
  refine ⟨by decide +kernel, pair_endsWhole _ _ (along_of_forall ?_ _)⟩
  simp [Pair.harmless, LinkLabel.harmless, offsetHarmless, Io.keepsFailed, Pair.orderly,
    LinkLabel.orderly, Io.orderly]

end CcMuduo
