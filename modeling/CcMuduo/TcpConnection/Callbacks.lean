import CcMuduo.TcpConnection.Calls

/-!
# The callbacks that sending queues

A connection queues two kinds of callbacks on its loop: the write complete callback, at a direct write
that took everything and at a drain, and the high-water callback, where `outputBuffer` is about to rise to
the mark. For each function, one lemma says exactly which of them it queues, and that it leaves the
settings of the owner alone.
-/

namespace CcMuduo

open Foundation

/-- Does the effect queue a callback? -/
def Effect.queues : Effect → Bool
  | .queueWriteComplete | .queueHighWaterMark _ => true
  | .write _ | .formatLiteral _ | .shutdownWrite _ | .connectionCallback _ | .messageCallback _ _
  | .closeCallback => false

/-- The callbacks that the effects queue, in order. -/
def queuedCallbacks (effects : List Effect) : List Effect := effects.filter Effect.queues

@[simp] theorem queuedCallbacks_append (l₁ l₂ : List Effect) :
    queuedCallbacks (l₁ ++ l₂) = queuedCallbacks l₁ ++ queuedCallbacks l₂ := by
  simp [queuedCallbacks]

namespace TcpConnection

variable (c : TcpConnection)

/-- What the owner of the connection has set. -/
def settings : ℕ × Bool × Bool := (c.highWaterMark, c.writeCompleteCallback, c.highWaterMarkCallback)

/-- The write complete callback, when it is set. -/
def writeComplete : List Effect := if c.writeCompleteCallback then [.queueWriteComplete] else []

/-- The high-water callback, when it is set and `outputBuffer` rises from `old` bytes past the mark. -/
def highWater (old new : ℕ) : List Effect :=
  if c.highWaterMark ≤ new ∧ old < c.highWaterMark ∧ c.highWaterMarkCallback then
    [.queueHighWaterMark new]
  else []

/-- Only a rise crosses the mark. -/
theorem highWater_of_le {old new : ℕ} (h : new ≤ old) : c.highWater old new = [] :=
  if_neg fun ⟨hmark, hold, _⟩ => by omega

/-- The high-water callback is a callback. -/
@[simp] theorem queued_highWater (old new : ℕ) :
    queuedCallbacks (c.highWater old new) = c.highWater old new := by
  unfold highWater
  split <;> rfl

end TcpConnection

/-- `sendInLoop` hands its whole message to the kernel at once. -/
def Io.sendsAtOnce (s : Io) (msg : Message) (w : WriteResult) : Prop :=
  s.conn.state ≠ .kDisconnected ∧ s.writesDirectly = true ∧ w = .accepted msg.bytes.length

instance (s : Io) (msg : Message) (w : WriteResult) : Decidable (s.sendsAtOnce msg w) :=
  inferInstanceAs (Decidable (_ ∧ _ ∧ _))

namespace ConnCall

/-- The call leaves nothing unsent: it sends at once, or it drains `outputBuffer`. -/
def completes (s : Io) : ConnCall → Prop
  | .send msg w _ => s.conn.state = .kConnected ∧ s.sendsAtOnce msg w
  | .sendInLoop msg w _ => s.sendsAtOnce msg w
  | .handleWrite w => s.drains w
  | .shutdown | .handleRead _ | .retrieve _ => False

instance (s : Io) (call : ConnCall) : Decidable (call.completes s) :=
  match call with
  | .send msg w _ => inferInstanceAs (Decidable (s.conn.state = .kConnected ∧ s.sendsAtOnce msg w))
  | .sendInLoop msg w _ => inferInstanceAs (Decidable (s.sendsAtOnce msg w))
  | .handleWrite w => inferInstanceAs (Decidable (s.drains w))
  | .shutdown | .handleRead _ | .retrieve _ => .isFalse id

/-- The call neither sends nor handles a write event. -/
def idle : ConnCall → Bool
  | .shutdown | .handleRead _ | .retrieve _ => true
  | .send _ _ _ | .sendInLoop _ _ _ | .handleWrite _ => false

end ConnCall

namespace Io

variable {s s' s'' : Io}

/-- What a function leaves on its way: exactly the callbacks `cs` are queued, and the settings are as they
were. -/
structure Queues (s s' : Io) (cs : List Effect) : Prop where
  queued : queuedCallbacks s'.effects = queuedCallbacks s.effects ++ cs
  settings : s'.conn.settings = s.conn.settings

/-- Without new effects nothing is queued. -/
theorem Queues.of_same (heffects : s'.effects = s.effects) (hsettings : s'.conn.settings = s.conn.settings) :
    Queues s s' [] :=
  ⟨by rw [heffects, List.append_nil], hsettings⟩

/-- One function after another. -/
theorem Queues.trans {cs cs' : List Effect} (h : Queues s s' cs) (h' : Queues s' s'' cs') :
    Queues s s'' (cs ++ cs') :=
  ⟨by rw [h'.queued, h.queued, List.append_assoc], h'.settings.trans h.settings⟩

/-- One function after another that queues nothing. -/
theorem Queues.then {cs : List Effect} (h : Queues s s' cs) (h' : Queues s' s'' []) : Queues s s'' cs :=
  List.append_nil cs ▸ h.trans h'

/-- Recording an effect queues it if it is a callback. -/
theorem emit_queues (s : Io) (e : Effect) : Queues s (s.emit e) (queuedCallbacks [e]) :=
  ⟨queuedCallbacks_append _ _, rfl⟩

/-- Recording an effect under a condition. -/
theorem emit_ite_queues (s : Io) (mark : Prop) [Decidable mark] (e : Effect) :
    Queues s (if mark then s.emit e else s) (if mark then queuedCallbacks [e] else []) := by
  split
  · exact s.emit_queues e
  · exact .of_same rfl rfl

/-- A report to the poller queues nothing. -/
theorem onChannel_queues {op : Channel → EpollPoller → Except Fault (EpollPoller × Channel)}
    (h : s.onChannel op = .ok s') : Queues s s' [] := by
  obtain ⟨⟨p, c⟩, -, heq⟩ := bind_eq_ok.mp h
  obtain rfl := Except.ok.inj heq
  exact .of_same rfl rfl

/-- `handleClose` queues nothing. -/
theorem handleClose_queues (h : s.handleClose = .ok s') : Queues s s' [] := by
  obtain ⟨s₁, h₁, heq⟩ := bind_eq_ok.mp h
  obtain rfl := Except.ok.inj heq
  have hstate : Queues s (s.setState .kDisconnected) [] := .of_same rfl rfl
  exact ((hstate.then (onChannel_queues h₁)).then (emit_queues _ _)).then (emit_queues _ _)

/-- `shutdownInLoop` queues nothing. -/
theorem shutdownInLoop_queues (s : Io) : Queues s s.shutdownInLoop [] := by
  unfold shutdownInLoop
  split
  · exact s.emit_queues _
  · exact .of_same rfl rfl

/-- A drain queues the write complete callback. -/
theorem drained_queues (h : s.drained = .ok s') : Queues s s' s.conn.writeComplete := by
  obtain ⟨s₁, h₁, h⟩ := bind_eq_ok.mp h
  have hchannel := onChannel_queues h₁
  have hset : s₁.conn.writeCompleteCallback = s.conn.writeCompleteCallback :=
    congrArg (fun set => set.2.1) hchannel.settings
  have hshut (x : Io) (hx : (if x.conn.state = .kDisconnecting then pure x.shutdownInLoop
      else pure x : Except Fault Io) = .ok s') : Queues x s' [] := by
    split at hx
    · exact Except.ok.inj hx ▸ x.shutdownInLoop_queues
    · exact Except.ok.inj hx ▸ .of_same rfl rfl
  rw [TcpConnection.writeComplete, ← hset]
  exact (hchannel.trans (emit_ite_queues s₁ _ .queueWriteComplete)).then (hshut _ h)

/-- Bytes that the kernel has taken queue the write complete callback when none are left. -/
theorem consume_queues {n : ℕ} {taken : List UInt8} (h : s.consume n taken = .ok s') :
    Queues s s' (if (s.conn.outputBuffer.retrieve n).readableBytes = 0 then s.conn.writeComplete
      else []) := by
  have htaken : Queues s { s with
      conn := { s.conn with outputBuffer := s.conn.outputBuffer.retrieve n }
      effects := s.effects ++ [.write taken] } [] :=
    ⟨queuedCallbacks_append _ _, rfl⟩
  unfold consume at h
  by_cases hempty : (s.conn.outputBuffer.retrieve n).readableBytes = 0
  · rw [if_pos (by simpa [emit] using hempty)] at h
    rw [if_pos hempty]
    exact htaken.trans (drained_queues h)
  · rw [if_neg (by simpa [emit] using hempty)] at h
    rw [if_neg hempty]
    exact Except.ok.inj h ▸ htaken

/-- `handleWrite` queues the write complete callback when it empties `outputBuffer`. -/
theorem handleWrite_queues {w : WriteResult} (hinv : s.conn.outputBuffer.Inv)
    (hfits : w.fits s.conn.outputBuffer.readableBytes = true) (h : s.handleWrite w = .ok s') :
    Queues s s' (if s.drains w then s.conn.writeComplete else []) := by
  unfold handleWrite at h
  split at h
  · rename_i hwriting
    cases w with
    | failed errno =>
      change (if (0 : ℤ) < -1 then s.consume 0 [] else .ok s) = .ok s' at h
      rw [if_neg (by decide)] at h
      rw [if_neg (by simp [drains])]
      exact Except.ok.inj h ▸ .of_same rfl rfl
    | accepted n =>
      have hn : n ≤ s.conn.outputBuffer.readableBytes := by simpa [WriteResult.fits] using hfits
      have hleft := (hinv.retrieve n).readableBytes_eq
      rw [hinv.content_retrieve, List.length_drop, ← hinv.readableBytes_eq] at hleft
      change (if (0 : ℤ) < (n : ℤ) then s.consume n (s.conn.outputBuffer.content.take n)
        else .ok s) = .ok s' at h
      split at h
      · rename_i hpos
        have hdrains : s.drains (.accepted n) ↔ (s.conn.outputBuffer.retrieve n).readableBytes = 0 := by
          rw [drains, WriteResult.accepted.injEq]
          refine ⟨fun hall => by omega, fun hempty => ⟨hwriting, by omega, by omega⟩⟩
        simp only [hdrains]
        exact consume_queues h
      · rename_i hzero
        rw [if_neg fun hall : s.drains (.accepted n) => by
          have hpos := hall.2.1
          have hsame := WriteResult.accepted.inj hall.2.2
          omega]
        exact Except.ok.inj h ▸ .of_same rfl rfl
  · rename_i hwriting
    rw [if_neg fun hall : s.drains w => hwriting hall.1]
    exact Except.ok.inj h ▸ .of_same rfl rfl

/-- The direct write queues the write complete callback when the kernel takes the whole message. -/
theorem directWrite_queues (s : Io) {msg : Message} {w : WriteResult} (log : ErrnoTrail)
    (hfits : w.fits msg.bytes.length = true) :
    Queues s (s.directWrite msg log w).1
      (if w = .accepted msg.bytes.length then s.conn.writeComplete else []) := by
  cases w with
  | accepted n =>
    have hn : n ≤ msg.bytes.length := by simpa [WriteResult.fits] using hfits
    have hsub : sizeSub msg.bytes.length n = 0 ↔ n = msg.bytes.length := by
      rw [show sizeSub msg.bytes.length n = msg.bytes.length - n from
        wordSub_eq hn (by have hmax := msg.fits; simp only [maxSize] at hmax; omega)]
      omega
    have hwrite := (s.emit_queues (.write (msg.bytes.take n))).trans (emit_ite_queues _
      (sizeSub msg.bytes.length n = 0 ∧ s.conn.writeCompleteCallback) .queueWriteComplete)
    refine ⟨hwrite.queued.trans (congrArg _ ?_), hwrite.settings⟩
    simp only [hsub, WriteResult.accepted.injEq, TcpConnection.writeComplete]
    by_cases hall : n = msg.bytes.length
    · simp only [hall, true_and, if_true]
      rfl
    · simp only [hall, false_and, if_false]
      rfl
  | failed errno =>
    rw [if_neg (by simp), directWrite]
    dsimp only
    split
    · exact s.emit_queues _
    · exact .of_same rfl rfl

/-- What keeping bytes for later does: the high-water callback is decided on the length that
`outputBuffer` is going to have, then the bytes are appended, and the poller may hear of it. -/
theorem queueRest_eq {msg : Message} {nwroter : ℤ} {remaining : ℕ}
    (h : s.queueRest msg nwroter remaining = .ok s') :
    ∃ out p c, s.conn.outputBuffer.append (msg.window nwroter remaining) = .ok out ∧ s' = {
      conn := { s.conn with outputBuffer := out, channel := c }
      poller := p
      effects := s.effects ++ s.conn.highWater s.conn.outputBuffer.readableBytes
        (sizeAdd s.conn.outputBuffer.readableBytes remaining) } := by
  obtain ⟨out, hout, h⟩ := bind_eq_ok.mp h
  have hmark : (if s.conn.highWaterMark ≤ sizeAdd s.conn.outputBuffer.readableBytes remaining ∧
      s.conn.outputBuffer.readableBytes < s.conn.highWaterMark ∧ s.conn.highWaterMarkCallback then
      s.emit (.queueHighWaterMark (sizeAdd s.conn.outputBuffer.readableBytes remaining)) else s) =
      { s with
        effects := s.effects ++ s.conn.highWater s.conn.outputBuffer.readableBytes
          (sizeAdd s.conn.outputBuffer.readableBytes remaining) } := by
    unfold TcpConnection.highWater
    split
    · rfl
    · rw [List.append_nil]
  rw [hmark] at h
  dsimp only at h
  split at h
  · obtain ⟨⟨p, c⟩, -, heq⟩ := bind_eq_ok.mp h
    exact ⟨out, p, c, hout, (Except.ok.inj heq).symm⟩
  · exact ⟨out, _, _, hout, (Except.ok.inj h).symm⟩

/-- What `sendInLoop` keeps for later queues the high-water callback when it crosses the mark. -/
theorem queueRest_queues {msg : Message} {nwroter : ℤ} {remaining : ℕ}
    (hinv : s.conn.outputBuffer.Inv) (hle : remaining ≤ msg.bytes.length)
    (hcount : (msg.window nwroter remaining).length = remaining)
    (h : s.queueRest msg nwroter remaining = .ok s') :
    Queues s s' (s.conn.highWater s.conn.outputBuffer.readableBytes
      s'.conn.outputBuffer.readableBytes) := by
  obtain ⟨out, p, c, hout, rfl⟩ := queueRest_eq h
  obtain ⟨hinv', hcontent⟩ := hinv.of_append (msg.window_length_le nwroter hle) hout
  have hsum : sizeAdd s.conn.outputBuffer.readableBytes remaining = out.readableBytes := by
    have hlen := congrArg List.length hcontent
    rw [List.length_append, ← hinv'.readableBytes_eq, ← hinv.readableBytes_eq, hcount] at hlen
    have hbound := hinv'.readableBytes_le
    simp only [maxSize] at hbound
    exact (wordAdd_eq (by omega)).trans hlen.symm
  refine ⟨?_, rfl⟩
  simp only [hsum, queuedCallbacks_append, TcpConnection.queued_highWater]

/-- The end of `sendInLoop` queues the high-water callback when it crosses the mark. -/
theorem rest_queues {msg : Message} {nwroter : ℤ} {remaining : ℕ} (hinv : s.conn.outputBuffer.Inv)
    (hle : remaining ≤ msg.bytes.length) (hcount : (msg.window nwroter remaining).length = remaining)
    (h : (if 0 < remaining then s.queueRest msg nwroter remaining else .ok s) = .ok s') :
    Queues s s' (s.conn.highWater s.conn.outputBuffer.readableBytes
      s'.conn.outputBuffer.readableBytes) := by
  split at h
  · exact queueRest_queues hinv hle hcount h
  · obtain rfl := Except.ok.inj h
    rw [s.conn.highWater_of_le le_rfl]
    exact .of_same rfl rfl

/-- `sendInLoop` queues the write complete callback when it hands its whole message to the kernel at
once, and the high-water callback when it crosses the mark. -/
theorem sendInLoop_queues {msg : Message} {w : WriteResult} {log : ErrnoTrail}
    (hinv : s.conn.outputBuffer.Inv) (hfits : w.fits msg.bytes.length = true)
    (h : s.sendInLoop msg w log = .ok s') :
    Queues s s' ((if s.sendsAtOnce msg w then s.conn.writeComplete else []) ++
      s.conn.highWater s.conn.outputBuffer.readableBytes s'.conn.outputBuffer.readableBytes) := by
  unfold sendInLoop at h
  split at h
  · rename_i hstate
    obtain rfl := Except.ok.inj h
    rw [if_neg fun hsends : s.sendsAtOnce msg w => hsends.1 hstate, s.conn.highWater_of_le le_rfl]
    exact .of_same rfl rfl
  · rename_i hstate
    unfold firstWrite at h
    cases hdirect : s.writesDirectly with
    | true =>
      have hsends : s.sendsAtOnce msg w ↔ w = .accepted msg.bytes.length := by
        simp [sendsAtOnce, hstate, hdirect]
      obtain ⟨new, nwroter, remaining, heq, -, -, hwindow, hcount⟩ := s.directWrite_eq log hfits
      have hfirst := s.directWrite_queues log hfits
      rw [heq] at hfirst
      simp only [hdirect, if_true, heq] at h
      simp only [hsends]
      cases hcloses : w.closes log with
      | true =>
        simp only [hcloses, if_true] at h
        obtain ⟨p, index, -, hclosed⟩ := handleClose_closed h
        rw [s.conn.highWater_of_le (by rw [hclosed]), List.append_nil]
        exact hfirst.then (handleClose_queues h)
      | false =>
        simp only [hcloses, Bool.false_eq_true, if_false] at h
        have hle : remaining ≤ msg.bytes.length := by
          rw [hcount]
          cases w <;> simp [WriteResult.kept]
        exact hfirst.trans (rest_queues (s := { s with effects := s.effects ++ new }) hinv hle
          (by rw [hwindow, hcount]) h)
    | false =>
      simp only [hdirect, Bool.false_eq_true, if_false] at h
      rw [if_neg fun hsends : s.sendsAtOnce msg w => absurd hsends.2.1 (by simp [hdirect])]
      have hwindow := msg.window_drop (n := 0)
      exact rest_queues hinv le_rfl (by simpa using congrArg List.length hwindow) h

/-- `handleWrite` never lengthens `outputBuffer`. -/
theorem handleWrite_shrinks {w : WriteResult} (hinv : s.conn.outputBuffer.Inv)
    (hfits : w.fits s.conn.outputBuffer.readableBytes = true) (h : s.handleWrite w = .ok s') :
    s'.conn.outputBuffer.readableBytes ≤ s.conn.outputBuffer.readableBytes := by
  rcases handleWrite_cases hinv hfits h with ⟨-, hdrain⟩ | ⟨-, out, hinv', hsplit, -, new, -, -, rfl⟩
  · rw [hdrain.inv.readableBytes_eq, hdrain.content]
    exact Nat.zero_le _
  · rw [hinv'.readableBytes_eq, hinv.readableBytes_eq, hsplit, List.length_append]
    exact Nat.le_add_left _ _

/-- A call that neither sends nor handles a write event does nothing to the output side. -/
structure Idle (s s' : Io) : Prop where
  queues : Queues s s' []
  output : s'.conn.outputBuffer = s.conn.outputBuffer
  written : written s'.effects = written s.effects

/-- `shutdown` does nothing to the output side. -/
theorem shutdown_idle (s : Io) : Idle s s.shutdown := by
  unfold shutdown
  split
  · have hset : Queues s (s.setState .kDisconnecting) [] := .of_same rfl rfl
    refine ⟨hset.then (shutdownInLoop_queues _), ?_, ?_⟩ <;> unfold shutdownInLoop <;> split <;>
      simp [emit, setState, CcMuduo.written]
  · exact ⟨.of_same rfl rfl, rfl, rfl⟩

/-- `handleRead` does nothing to the output side. -/
theorem handleRead_idle {r : ReadResult} (hinv : s.conn.inputBuffer.Inv)
    (hlegal : (ConnCall.handleRead r).legal s = true) (h : s.handleRead r = .ok s') : Idle s s' := by
  rcases handleRead_cases hinv h with
    ⟨-, -, rfl⟩ | ⟨-, input, -, p, index, -, rfl⟩ | ⟨bytes, rfl, -, hread⟩
  · exact ⟨.of_same rfl rfl, rfl, rfl⟩
  · refine ⟨⟨?_, rfl⟩, rfl, ?_⟩
    · simp [queuedCallbacks, Effect.queues]
    · simp [CcMuduo.written]
  · obtain ⟨input, -, -, rfl⟩ := hread (by simpa [ConnCall.legal] using hlegal)
    refine ⟨⟨queuedCallbacks_append _ _, rfl⟩, rfl, ?_⟩
    simp [CcMuduo.written]

/-- A call that neither sends nor handles a write event does nothing to the output side. -/
theorem idle_of_callStep {call : ConnCall} (hgood : s.Good) (hidle : call.idle = true)
    (h : callStep s call = some s') : Idle s s' := by
  obtain ⟨hlegal, hexec⟩ := callStep_eq_some.mp h
  cases call with
  | shutdown => exact Except.ok.inj hexec ▸ s.shutdown_idle
  | handleRead r => exact handleRead_idle hgood.input hlegal hexec
  | retrieve len => exact Except.ok.inj hexec ▸ ⟨.of_same rfl rfl, rfl, rfl⟩
  | send | sendInLoop | handleWrite => contradiction

/-- What a call queues: the write complete callback when it completes the output, and the high-water
callback when it crosses the mark. -/
theorem callStep_queues {call : ConnCall} (hgood : s.Good) (h : callStep s call = some s') :
    Queues s s' ((if call.completes s then s.conn.writeComplete else []) ++
      s.conn.highWater s.conn.outputBuffer.readableBytes s'.conn.outputBuffer.readableBytes) := by
  obtain ⟨hlegal, hexec⟩ := callStep_eq_some.mp h
  cases call with
  | send msg w log =>
    simp only [ConnCall.exec, send] at hexec
    split at hexec
    · rename_i hstate
      have hsends : (ConnCall.send msg w log).completes s ↔ s.sendsAtOnce msg w :=
        and_iff_right hstate
      simp only [hsends]
      exact sendInLoop_queues hgood.output hlegal hexec
    · rename_i hstate
      obtain rfl := Except.ok.inj hexec
      have hnot : ¬ (ConnCall.send msg w log).completes s := fun hsends => hstate hsends.1
      rw [if_neg hnot, s.conn.highWater_of_le le_rfl]
      exact .of_same rfl rfl
  | sendInLoop msg w log => exact sendInLoop_queues hgood.output hlegal hexec
  | handleWrite w =>
    rw [s.conn.highWater_of_le (handleWrite_shrinks hgood.output hlegal hexec), List.append_nil]
    exact handleWrite_queues hgood.output hlegal hexec
  | shutdown | handleRead r | retrieve len =>
    have hidle := idle_of_callStep hgood rfl h
    rw [hidle.output, s.conn.highWater_of_le le_rfl]
    exact hidle.queues

end Io

end CcMuduo
