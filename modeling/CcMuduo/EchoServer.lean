import CcMuduo.TcpConnection.Lifetime
import CcMuduo.TcpConnection.Pair

/-!
# The echo server

The server of the example, at the other end of any client: its message callback takes everything that
is readable and sends it back. Between the read and the callback's end its loop does nothing else, while
the client and the network go on. The network is that of a `Pair`: no resets, and no direct write that
fails for good.

What the client was given to send then lies, in order, on the way out and on the way back, and what the
client is handed is a prefix of it.
-/

namespace CcMuduo

open Foundation

/-- `EchoServer::onMessage`. The message is a string of its own, with the byte `before` in front of it
in memory. -/
def Io.onMessage (s : Io) (before : UInt8) (w : WriteResult) (log : ErrnoTrail) : Except Fault Io := do
  let (input, msg) ← s.conn.inputBuffer.retrieveAllAsString
  if fits : msg.length ≤ maxSize then
    Io.send { s with conn := { s.conn with inputBuffer := input } } ⟨before, msg, fits⟩ w log
  else .error .lengthError

/-- A client and the echo server; `running` says that the message callback of the server runs. -/
structure EchoPair where
  pair : Pair
  running : Bool

/-- What can happen: a step of the client, of the network, or of the dispatch of the server, and the
message callback. -/
inductive EchoLabel where
  | client (label : LinkLabel)
  | arrive (e : Endpoint) (count : ℕ)
  | arriveFin (e : Endpoint)
  | poll (writable : Bool)
  | eventRead (r : ReadResult)
  | eventWrite (w : WriteResult)
  | onMessage (before : UInt8) (w : WriteResult) (log : ErrnoTrail)

/-- The effects that the second record has more than the first contain a call of the message
callback. -/
def startsMessage (old new : List Effect) : Bool := (new.drop old.length).any Effect.isMessage

namespace EchoPair

variable (s : EchoPair)

/-- The server's end. -/
def server : Link := s.pair.link .server

/-- The client's end. -/
def client : Link := s.pair.link .client

/-- A step of the pair behind which the callback is where it was. -/
def quietly (label : PairLabel) : Option EchoPair :=
  (s.pair.step label).map fun pair => { s with pair := pair }

/-- The message callback at the server. -/
def callback (before : UInt8) (w : WriteResult) (log : ErrnoTrail) : Option EchoPair :=
  let io := s.server.io
  let msg := io.conn.inputBuffer.content
  if w.fits msg.length && !w.closes log then
    (io.onMessage before w log).toOption.map fun io' => {
      pair := {
        link := Function.update s.pair.link .server { s.server with io := io' }
        given := Function.update s.pair.given .server
          (s.pair.given .server ++ if io.conn.state = .kConnected then msg else []) }
      running := false }
  else none

/-- One step of client, network and echo server. -/
def step (s : EchoPair) : EchoLabel → Option EchoPair
  | .client label => s.quietly (.own .client label)
  | .arrive e count => s.quietly (.arrive e count)
  | .arriveFin e => s.quietly (.arriveFin e)
  | .poll writable => if s.running then none else s.quietly (.own .server (.poll writable))
  | .eventWrite w => if s.running then none else s.quietly (.own .server (.eventWrite w))
  | .eventRead r =>
    if s.running then none
    else (s.pair.step (.own .server (.eventRead r))).map fun pair => {
      pair := pair
      running := startsMessage s.server.io.effects (pair.link .server).io.effects }
  | .onMessage before w log => if s.running then s.callback before w log else none

/-- No direct `::write` fails and leaves its message to be kept, unless the offset does no harm. -/
def harmless (s : EchoPair) : EchoLabel → Prop
  | .client label => label.harmless ⟨s.client.io, s.pair.given .client⟩
  | .onMessage before w log =>
    s.server.io.conn.state = .kConnected → s.server.io.keepsFailed w log →
      ∀ b ∈ s.server.io.conn.inputBuffer.content, b = before
  | _ => True

/-- The bytes on the way from the client to the server's message callback, in order from the server
on. -/
def outbound : List UInt8 :=
  s.server.unread ++ s.pair.inFlight .server ++ s.client.io.conn.outputBuffer.content

/-- The bytes on the way back, in order from the client on. -/
def inbound : List UInt8 :=
  s.client.unread ++ s.pair.inFlight .client ++ s.server.io.conn.outputBuffer.content

/-- The client is handed a prefix of what it was given to send, and as long as both ends are open
everything else of it is on the way. -/
def RoundTrip (s : EchoPair) : Prop :=
  delivered s.client.io.effects <+: s.pair.given .client ∧
    (closed s.client.io.effects = false → closed s.server.io.effects = false →
      delivered s.client.io.effects ++ s.inbound ++ s.server.io.conn.inputBuffer.content ++
        s.outbound = s.pair.given .client)

end EchoPair

namespace Io

/-- An open echo server is connected, and has given back all it was handed but what is readable. -/
structure Echoing (given : List UInt8) (s : Io) : Prop where
  good : s.Good
  begins : given <+: delivered s.effects
  connected : closed s.effects = false → s.conn.state = .kConnected
  whole : closed s.effects = false →
    given ++ s.conn.inputBuffer.content = delivered s.effects

variable {given : List UInt8} {s s' : Io}

/-- A function that only sends. -/
theorem Echoing.of_sends (h : s.Echoing given) (hgood : s'.Good)
    (hstate : s'.conn.state = s.conn.state) (hinput : s'.conn.inputBuffer = s.conn.inputBuffer)
    (hsends : ∃ new, s'.effects = s.effects ++ new ∧ ∀ e ∈ new, e.isSend = true) :
    s'.Echoing given := by
  obtain ⟨hdelivered, hclosed⟩ := delivery_of_sends hsends
  refine ⟨hgood, ?_, ?_, ?_⟩
  · rw [hdelivered]
    exact h.begins
  · rw [hclosed, hstate]
    exact h.connected
  · rw [hclosed, hinput, hdelivered]
    exact h.whole

/-- Closing an echo server. -/
theorem Echoing.of_closedAfter (h : s.Echoing given) (hclose : ClosedAfter s s' []) :
    s'.Echoing given := by
  have hclosed := hclose.closed
  refine ⟨h.good.of_closedAfter hclose, ?_, by simp [hclosed], by simp [hclosed]⟩
  rw [delivery_of_closedAfter hclose]
  exact h.begins

/-- A read callback hands over what it adds to `inputBuffer`. -/
theorem Echoing.of_handleRead (h : s.Echoing given) {r : ReadResult}
    (hlegal : (ConnCall.handleRead r).legal s = true) (hs : s.handleRead r = .ok s') :
    s'.Echoing given := by
  have hgood := h.good.of_handleRead hlegal hs
  rcases handleRead_cases h.good.input hs with
    ⟨-, -, rfl⟩ | ⟨-, input, -, hclose⟩ | ⟨bytes, rfl, -, hread⟩
  · exact h
  · have hclosed := hclose.closed
    refine ⟨hgood, ?_, by simp [hclosed], by simp [hclosed]⟩
    rw [delivery_of_closedAfter hclose]
    exact h.begins
  · obtain ⟨input, -, hcontent, rfl⟩ := hread (by simpa [ConnCall.legal] using hlegal)
    have hclosed : closed (s.effects ++ [.messageCallback input.content bytes.length]) =
        closed s.effects := by
      rw [closed_append, Bool.or_eq_left_iff_imp]
      simp [closed]
    have hdelivered : delivered (s.effects ++ [.messageCallback input.content bytes.length]) =
        delivered s.effects ++ bytes := by
      rw [delivered_append, hcontent, delivered_read]
    refine ⟨hgood, ?_, ?_, ?_⟩
    · rw [hdelivered]
      exact h.begins.trans (List.prefix_append _ _)
    · rw [hclosed]
      exact h.connected
    · rw [hclosed, hdelivered, hcontent]
      intro hopen
      rw [← h.whole hopen, List.append_assoc]

/-- On a connection whose buffers are well formed the callback takes the readable bytes and sends
them. -/
theorem onMessage_eq (hgood : s.Good) (before : UInt8) (w : WriteResult) (log : ErrnoTrail) :
    ∃ fits, s.onMessage before w log = Io.send
      { s with conn := { s.conn with inputBuffer := s.conn.inputBuffer.retrieveAll } }
      ⟨before, s.conn.inputBuffer.content, fits⟩ w log := by
  have hfits : s.conn.inputBuffer.content.length ≤ maxSize := by
    rw [← hgood.input.readableBytes_eq]
    exact hgood.input.readableBytes_le
  refine ⟨hfits, ?_⟩
  rw [onMessage, hgood.input.retrieveAllAsString]
  exact dif_pos hfits

/-- The callback gives back what was readable. -/
theorem Echoing.of_onMessage (h : s.Echoing given) {before : UInt8} {w : WriteResult}
    {log : ErrnoTrail} (hfits : w.fits s.conn.inputBuffer.content.length = true)
    (hcloses : w.closes log = false) (hs : s.onMessage before w log = .ok s') :
    s'.Echoing
      (given ++ if s.conn.state = .kConnected then s.conn.inputBuffer.content else []) := by
  obtain ⟨hmax, heq⟩ := onMessage_eq h.good before w log
  rw [heq] at hs
  set emptied : Io :=
    { s with conn := { s.conn with inputBuffer := s.conn.inputBuffer.retrieveAll } } with hemptied
  have hgood : emptied.Good :=
    h.good.of_same h.good.output h.good.input.retrieveAll rfl rfl rfl
  have hnothing : emptied.conn.inputBuffer.content = [] := segment_self _ _
  unfold Io.send at hs
  split at hs
  · rename_i hstate
    change s.conn.state = .kConnected at hstate
    have hopen : closed s.effects = false := by
      rw [← Bool.not_eq_true, h.good.closed_iff, hstate]
      simp
    have hbefore : emptied.Echoing (given ++ s.conn.inputBuffer.content) := by
      refine ⟨hgood, ?_, fun _ => hstate, fun _ => ?_⟩
      · exact (h.whole hopen) ▸ List.prefix_rfl
      · rw [hnothing, List.append_nil]
        exact h.whole hopen
    rw [if_pos hstate]
    have hgood' := hgood.of_sendInLoop hfits hs
    rcases sendInLoop_cases hgood.output hfits hs with
      ⟨-, rfl⟩ | ⟨-, -, hfault, -⟩ | ⟨-, -, -, hsent⟩ | ⟨-, -, hsent⟩
    · exact hbefore
    · rw [hcloses] at hfault
      contradiction
    · exact hbefore.of_sends hgood' hsent.state hsent.input hsent.sends
    · exact hbefore.of_sends hgood' hsent.state hsent.input hsent.sends
  · rename_i hstate
    change s.conn.state ≠ .kConnected at hstate
    obtain rfl := Except.ok.inj hs
    rw [if_neg hstate, List.append_nil]
    exact ⟨hgood, h.begins, h.connected, fun hopen => absurd (h.connected hopen) hstate⟩

end Io

/-- Every step of the dispatch, and of the network, keeps the server echoing. -/
theorem Io.Echoing.of_step {given : List UInt8} {link link' : Link} (h : link.io.Echoing given)
    {label : LinkLabel} (hcall : ∀ c, label ≠ .call c) (hstep : link.step label = some link') :
    link'.io.Echoing given := by
  have hgood := (Link.step_good h.good hstep).1
  cases label with
  | peerSend bytes =>
    obtain ⟨-, rfl⟩ := Link.step_peerSend hstep
    exact h
  | peerFin =>
    obtain ⟨-, rfl⟩ := Link.step_peerFin hstep
    exact h
  | poll writable =>
    obtain ⟨-, revents, -, rfl⟩ := Link.step_poll hstep
    exact h
  | eventRead r =>
    obtain ⟨revents, io, -, hanswer, hio, rfl⟩ := Link.step_eventRead hstep
    unfold Io.handleEventRead at hio
    split at hio
    · exact Except.ok.inj hio ▸ h
    · split at hio
      · exact h.of_closedAfter (Io.handleClose_closed hio)
      · split at hio
        · exact h.of_handleRead (Link.legal_of_answers hanswer) hio
        · exact Except.ok.inj hio ▸ h
  | eventWrite w =>
    obtain ⟨revents, io, -, hfits, hio, rfl⟩ := Link.step_eventWrite hstep
    unfold Io.handleEventWrite at hio
    split at hio
    · exact Except.ok.inj hio ▸ h
    · split at hio
      · rcases Io.handleWrite_cases h.good.output hfits hio with
          ⟨-, hdrain⟩ | ⟨-, out, -, -, -, new, hsend, -, rfl⟩
        · exact h.of_sends hgood hdrain.state hdrain.input hdrain.sends
        · exact h.of_sends hgood rfl rfl ⟨new, rfl, hsend⟩
      · exact Except.ok.inj hio ▸ h
  | call c => exact absurd rfl (hcall c)

namespace EchoPair

variable {s s' : EchoPair}

/-- What every step without a harmful offset keeps. -/
structure Inv (s : EchoPair) : Prop where
  pair : s.pair.Inv
  endToEnd : s.pair.EndToEnd
  echoing : s.server.io.Echoing (s.pair.given .server)

/-- The places on the way hold everything, and what comes back is a prefix. -/
theorem Inv.roundTrip (h : s.Inv) : s.RoundTrip := by
  obtain ⟨hback, hreturned⟩ := h.endToEnd .client
  obtain ⟨hout, hforwarded⟩ := h.endToEnd .server
  simp only [List.append_assoc] at hback hout
  have hgiven : delivered s.client.io.effects <+: s.pair.given .server :=
    (List.prefix_append _ _).trans hback
  have htaken : delivered s.server.io.effects <+: s.pair.given .client :=
    (List.prefix_append _ _).trans hout
  refine ⟨(hgiven.trans h.echoing.begins).trans htaken, fun hclient hserver => ?_⟩
  calc delivered s.client.io.effects ++ s.inbound ++ s.server.io.conn.inputBuffer.content ++ s.outbound
      = delivered s.client.io.effects ++ s.client.unread ++ s.pair.inFlight .client ++
          s.server.io.conn.outputBuffer.content ++ s.server.io.conn.inputBuffer.content ++
          s.outbound := by simp only [inbound, List.append_assoc]
    _ = s.pair.given .server ++ s.server.io.conn.inputBuffer.content ++ s.outbound :=
          congrArg (· ++ s.server.io.conn.inputBuffer.content ++ s.outbound) (hreturned hserver)
    _ = delivered s.server.io.effects ++ s.outbound := by rw [h.echoing.whole hserver]
    _ = delivered s.server.io.effects ++ s.server.unread ++ s.pair.inFlight .server ++
          s.client.io.conn.outputBuffer.content := by simp only [outbound, List.append_assoc]
    _ = s.pair.given .client := hforwarded hclient

/-- A step of the pair that is no call at the server. -/
theorem Inv.of_pair (h : s.Inv) {label : PairLabel} {pair : Pair}
    (hcall : ∀ c, label ≠ .own .server (.call c)) (hharmless : s.pair.harmless label)
    (hstep : s.pair.step label = some pair) (running : Bool) : Inv ⟨pair, running⟩ := by
  obtain ⟨hpair, hend⟩ := h.pair.step h.endToEnd hstep
  refine ⟨hpair, hend.mpr hharmless, ?_⟩
  have of_advance {e : Endpoint} {l : LinkLabel} (hl : ∀ c, e = .server → l ≠ .call c)
      (hadvance : s.pair.advance e l = some pair) :
      (pair.link .server).io.Echoing (pair.given .server) := by
    obtain ⟨link, hlink, rfl⟩ := Option.map_eq_some_iff.mp hadvance
    cases e with
    | client => exact h.echoing
    | server =>
      have hgiven : l.given (s.pair.link .server).io = [] := by
        cases l with
        | call c => exact absurd rfl (hl c rfl)
        | _ => rfl
      simpa [hgiven] using h.echoing.of_step (fun c => hl c rfl) hlink
  cases label with
  | own e l =>
    simp only [Pair.step] at hstep
    split at hstep
    · refine of_advance (fun c he hl => ?_) hstep
      subst he hl
      exact hcall c rfl
    · contradiction
  | arrive e count => exact of_advance (fun c _ => by simp) hstep
  | arriveFin e =>
    simp only [Pair.step] at hstep
    split at hstep
    · exact of_advance (fun c _ => by simp) hstep
    · contradiction

/-- The message callback is two calls at the server: taking what is readable, and sending it. -/
theorem Inv.callback_advance (h : s.Inv) {before : UInt8} {w : WriteResult} {log : ErrnoTrail}
    (hstep : s.callback before w log = some s') :
    ∃ mid fits, s.pair.advance .server
        (.call (.retrieve s.server.io.conn.inputBuffer.readableBytes)) = some mid ∧
      mid.advance .server
        (.call (.send ⟨before, s.server.io.conn.inputBuffer.content, fits⟩ w log)) = some s'.pair ∧
      (s.harmless (.onMessage before w log) →
        LinkLabel.harmless ⟨(mid.link .server).io, mid.given .server⟩
          (.call (.send ⟨before, s.server.io.conn.inputBuffer.content, fits⟩ w log))) ∧
      s'.server.io.Echoing (s'.pair.given .server) := by
  have hall : s.server.io.conn.inputBuffer.retrieve s.server.io.conn.inputBuffer.readableBytes =
      s.server.io.conn.inputBuffer.retrieveAll := if_neg (lt_irrefl _)
  unfold callback at hstep
  dsimp only at hstep
  split at hstep
  · rename_i hlegal
    rw [Bool.and_eq_true, Bool.not_eq_true'] at hlegal
    obtain ⟨io, hio, rfl⟩ := Option.map_eq_some_iff.mp hstep
    rw [toOption_eq_some] at hio
    have hechoing := h.echoing.of_onMessage hlegal.1 hlegal.2 hio
    obtain ⟨fits, heq⟩ := Io.onMessage_eq h.echoing.good before w log
    rw [heq] at hio
    refine ⟨{
      link := Function.update s.pair.link .server { s.server with io := { s.server.io with
        conn := { s.server.io.conn with inputBuffer := s.server.io.conn.inputBuffer.retrieveAll } } }
      given := Function.update s.pair.given .server (s.pair.given .server ++ []) }, fits, ?_, ?_,
      ?_, ?_⟩
    · change Option.map _ (some _) = _
      rw [← hall]
      rfl
    · have hcall : callStep { s.server.io with conn := { s.server.io.conn with
          inputBuffer := s.server.io.conn.inputBuffer.retrieveAll } }
          (.send ⟨before, s.server.io.conn.inputBuffer.content, fits⟩ w log) = some io :=
        callStep_eq_some.mpr ⟨hlegal.1, hio⟩
      simp [Pair.advance, Link.step, ConnCall.isUser, hlegal.2, hcall, LinkLabel.given,
        ConnCall.given]
    · intro hharmless
      simpa [harmless, LinkLabel.harmless, offsetHarmless, Io.keepsFailed, Io.writesDirectly]
        using hharmless
    · simpa [server] using hechoing
  · contradiction

/-- One step without a harmful offset keeps the invariant. -/
theorem Inv.step (h : s.Inv) {label : EchoLabel} (hharmless : s.harmless label)
    (hstep : s.step label = some s') : s'.Inv := by
  have of_quietly {l : PairLabel} (hcall : ∀ c, l ≠ .own .server (.call c))
      (hl : s.pair.harmless l) (hquiet : s.quietly l = some s') : s'.Inv := by
    obtain ⟨pair, hpair, rfl⟩ := Option.map_eq_some_iff.mp hquiet
    exact h.of_pair hcall hl hpair s.running
  cases label with
  | client l => exact of_quietly (l := .own .client l) (fun c => by simp) hharmless hstep
  | arrive e count => exact of_quietly (l := .arrive e count) (fun c => by simp) trivial hstep
  | arriveFin e => exact of_quietly (l := .arriveFin e) (fun c => by simp) trivial hstep
  | poll writable =>
    simp only [EchoPair.step] at hstep
    split at hstep
    · contradiction
    · exact of_quietly (l := .own .server (.poll writable)) (fun c => by simp) trivial hstep
  | eventWrite w =>
    simp only [EchoPair.step] at hstep
    split at hstep
    · contradiction
    · exact of_quietly (l := .own .server (.eventWrite w)) (fun c => by simp) trivial hstep
  | eventRead r =>
    simp only [EchoPair.step] at hstep
    split at hstep
    · contradiction
    · obtain ⟨pair, hpair, rfl⟩ := Option.map_eq_some_iff.mp hstep
      have hcall (c : ConnCall) : PairLabel.own .server (.eventRead r) ≠ .own .server (.call c) := by
        simp
      exact h.of_pair hcall trivial hpair _
  | onMessage before w log =>
    simp only [EchoPair.step] at hstep
    split at hstep
    · obtain ⟨mid, fits, hretrieve, hsend, hkept, hechoing⟩ := h.callback_advance hstep
      obtain ⟨hmid, hmidEnd⟩ := h.pair.advance_endToEnd h.endToEnd hretrieve
        (fun link hlink => by rw [Pair.sent_of_own rfl hlink]; exact h.pair.wire .server)
      obtain ⟨hpair, hend⟩ := hmid.advance_endToEnd (hmidEnd.mpr trivial) hsend
        (fun link hlink => by rw [Pair.sent_of_own rfl hlink]; exact hmid.wire .server)
      exact ⟨hpair, hend.mpr (hkept hharmless), hechoing⟩
    · contradiction

end EchoPair

/-- A client and the echo server when their connection is established at both ends. -/
def EchoPair.opened (o : Endpoint → Opening) : EchoPair := ⟨.opened o, false⟩

/-- In every interleaving of a client, the network and the echo server in which no direct `::write`
that fails leaves a message to be kept, unless the offset does no harm there, the client is handed a
prefix of what it was given to send, and as long as both ends are open the rest of it is on the way. -/
theorem echo_roundTrip (o : Endpoint → Opening) (labels : List EchoLabel)
    (h : Along EchoPair.step EchoPair.harmless (EchoPair.opened o) labels) :
    Everywhere EchoPair.step EchoPair.RoundTrip (EchoPair.opened o) labels := by
  have hopened : (EchoPair.opened o).Inv := by
    obtain ⟨hpair, hend⟩ := Pair.opened_endToEnd o
    refine ⟨hpair, hend, (o .server).established_good, List.nil_prefix, fun _ => rfl, fun _ => ?_⟩
    change [] ++ Buffer.initial.content = delivered (o .server).established.effects
    rw [Buffer.initial_content]
    rfl
  exact everywhere_of_along (fun s hs => hs.roundTrip)
    (fun s a s' hs hharmless hstep => hs.step hharmless hstep) hopened h

/-- Two bytes go out and come back. -/
theorem echo_twoBytes :
    ((run EchoPair.step (EchoPair.opened fun _ => Opening.fresh)
      [.client (.call (.send ⟨0, [104, 105], by decide⟩ (.accepted 2) ⟨id, id⟩)), .arrive .server 2,
        .poll false, .eventRead (.received [104, 105]), .onMessage 0 (.accepted 2) ⟨id, id⟩,
        .eventWrite (.accepted 0), .arrive .client 2, .client (.poll false),
        .client (.eventRead (.received [104, 105]))]).map
          fun s => delivered s.client.io.effects) = some [104, 105] ∧
    Everywhere EchoPair.step EchoPair.RoundTrip (EchoPair.opened fun _ => Opening.fresh)
      [.client (.call (.send ⟨0, [104, 105], by decide⟩ (.accepted 2) ⟨id, id⟩)), .arrive .server 2,
        .poll false, .eventRead (.received [104, 105]), .onMessage 0 (.accepted 2) ⟨id, id⟩,
        .eventWrite (.accepted 0), .arrive .client 2, .client (.poll false),
        .client (.eventRead (.received [104, 105]))] := by
  refine ⟨by decide +kernel, echo_roundTrip _ _ (along_of_forall ?_ _)⟩
  simp [EchoPair.harmless, LinkLabel.harmless, offsetHarmless, Io.keepsFailed]

end CcMuduo
