import CcMuduo.TcpConnection.Callbacks
import CcMuduo.TcpConnection.OutputStream

/-!
# The notifications of a connection

What the user hears of the output of a connection. The write complete callback is queued by the step in
which the kernel accepts the last byte given to `sendInLoop`, whichever of the two writes that was, and the
high-water callback by the step that raises `outputBuffer` to the mark.
-/

namespace CcMuduo

open Foundation

/-- How many write complete callbacks were queued. -/
def writeCompletes (effects : List Effect) : ℕ := effects.count .queueWriteComplete

/-- The lengths that the queued high-water callbacks carry, in order. -/
def highWaterMarks (effects : List Effect) : List ℕ :=
  effects.filterMap fun
    | .queueHighWaterMark len => some len
    | _ => none

/-- How many bytes the kernel has accepted so far. -/
def Stream.accepted (s : Stream) : ℕ := (written s.io.effects).length

/-- A call of `send` or `sendInLoop` has something to say. -/
def ConnCall.speaks : ConnCall → Prop
  | .send msg _ _ | .sendInLoop msg _ _ => msg.bytes ≠ []
  | .shutdown | .handleRead _ | .handleWrite _ | .retrieve _ => True

@[simp] theorem writeCompletes_append (l₁ l₂ : List Effect) :
    writeCompletes (l₁ ++ l₂) = writeCompletes l₁ + writeCompletes l₂ :=
  List.count_append

@[simp] theorem highWaterMarks_append (l₁ l₂ : List Effect) :
    highWaterMarks (l₁ ++ l₂) = highWaterMarks l₁ ++ highWaterMarks l₂ :=
  List.filterMap_append

/-- Only callbacks count. -/
theorem writeCompletes_queued (effects : List Effect) :
    writeCompletes (queuedCallbacks effects) = writeCompletes effects :=
  List.count_filter rfl

/-- Only callbacks carry a length. -/
theorem highWaterMarks_queued (effects : List Effect) :
    highWaterMarks (queuedCallbacks effects) = highWaterMarks effects := by
  rw [highWaterMarks, queuedCallbacks, List.filterMap_filter]
  refine List.filterMap_congr fun e _ => ?_
  cases e <;> rfl

namespace TcpConnection

variable {c : TcpConnection}

/-- The write complete callback, when it is set, counts one. -/
theorem writeCompletes_writeComplete (hset : c.writeCompleteCallback = true) :
    writeCompletes c.writeComplete = 1 := by
  rw [writeComplete, if_pos hset]
  rfl

/-- The high-water callback is no write complete callback. -/
theorem writeCompletes_highWater (old new : ℕ) : writeCompletes (c.highWater old new) = 0 := by
  unfold highWater
  split <;> rfl

/-- The write complete callback carries no length. -/
theorem highWaterMarks_writeComplete : highWaterMarks c.writeComplete = [] := by
  unfold writeComplete
  split <;> rfl

/-- The high-water callback, when it is set, carries the length behind the crossing. -/
theorem highWaterMarks_highWater (hset : c.highWaterMarkCallback = true) (old new : ℕ) :
    highWaterMarks (c.highWater old new) =
      if old < c.highWaterMark ∧ c.highWaterMark ≤ new then [new] else [] := by
  unfold highWater
  by_cases hcross : old < c.highWaterMark ∧ c.highWaterMark ≤ new
  · rw [if_pos ⟨hcross.2, hcross.1, hset⟩, if_pos hcross]
    rfl
  · rw [if_neg fun hmark => hcross ⟨hmark.2.1, hmark.1⟩, if_neg hcross]
    rfl

end TcpConnection

namespace Io

variable {s s' : Io} {call : ConnCall}

/-- A step counts a write complete callback when it completes the output. -/
theorem callStep_writeCompletes (hgood : s.Good) (hset : s.conn.writeCompleteCallback = true)
    (h : callStep s call = some s') :
    writeCompletes s'.effects = writeCompletes s.effects + if call.completes s then 1 else 0 := by
  rw [← writeCompletes_queued s'.effects, (callStep_queues hgood h).queued]
  simp only [writeCompletes_append, writeCompletes_queued, TcpConnection.writeCompletes_highWater]
  split
  · rw [TcpConnection.writeCompletes_writeComplete hset]
  · rfl

/-- A step marks a crossing. -/
theorem callStep_highWaterMarks (hgood : s.Good) (hset : s.conn.highWaterMarkCallback = true)
    (h : callStep s call = some s') :
    highWaterMarks s'.effects = highWaterMarks s.effects ++
      if s.conn.outputBuffer.readableBytes < s.conn.highWaterMark ∧
        s.conn.highWaterMark ≤ s'.conn.outputBuffer.readableBytes then
        [s'.conn.outputBuffer.readableBytes]
      else [] := by
  rw [← highWaterMarks_queued s'.effects, (callStep_queues hgood h).queued]
  simp only [highWaterMarks_append, highWaterMarks_queued,
    TcpConnection.highWaterMarks_highWater hset]
  split
  · rw [TcpConnection.highWaterMarks_writeComplete, List.nil_append]
  · rfl

/-- A direct write is complete when it leaves nothing and the kernel took something. -/
theorem accepted_iff {msg : Message} {w : WriteResult} (hfits : w.fits msg.bytes.length = true)
    (hspeaks : msg.bytes ≠ []) :
    w = .accepted msg.bytes.length ↔ w.kept msg = [] ∧ 0 < (w.taken msg).length := by
  have hpos := List.length_pos_iff.mpr hspeaks
  cases w with
  | accepted n =>
    have hn : n ≤ msg.bytes.length := by simpa [WriteResult.fits] using hfits
    rw [WriteResult.accepted.injEq, WriteResult.kept, WriteResult.taken, List.drop_eq_nil_iff,
      List.length_take]
    omega
  | failed errno => simp [WriteResult.taken]

/-- `sendInLoop` completes the output when it leaves nothing and the kernel took something. -/
theorem sendsAtOnce_iff {msg : Message} {w : WriteResult} {log : ErrnoTrail} (hgood : s.Good)
    (hfits : w.fits msg.bytes.length = true) (hspeaks : msg.bytes ≠ [])
    (h : s.sendInLoop msg w log = .ok s') (hopen : closed s'.effects = false) :
    s.sendsAtOnce msg w ↔ s'.conn.outputBuffer.content = [] ∧
      (written s.effects).length < (written s'.effects).length := by
  rcases sendInLoop_cases hgood.output hfits h with
    ⟨hstate, rfl⟩ | ⟨-, -, -, new, -, hclose⟩ | ⟨hstate, hdirect, -, hsent⟩ | ⟨-, hdirect, hsent⟩
  · rw [hgood.closed_iff.mpr hstate] at hopen
    contradiction
  · rw [hclose.closed] at hopen
    contradiction
  · have hempty := content_of_writesDirectly hgood.output hdirect
    rw [sendsAtOnce, hsent.content, hsent.written, hempty, List.nil_append, List.length_append,
      Nat.lt_add_right_iff_pos, ← accepted_iff hfits hspeaks]
    exact ⟨fun hsends => hsends.2.2, fun hall => ⟨hstate, hdirect, hall⟩⟩
  · refine iff_of_false (fun hsends => ?_) (fun hdone => ?_)
    · exact absurd hsends.2.1 (by simp [hdirect])
    · rw [hsent.written, List.append_nil] at hdone
      exact lt_irrefl _ hdone.2

/-- A write event completes the output when it leaves nothing and the kernel took something. -/
theorem drains_iff {w : WriteResult} (hgood : s.Good)
    (hfits : w.fits s.conn.outputBuffer.readableBytes = true) (h : s.handleWrite w = .ok s') :
    s.drains w ↔ s'.conn.outputBuffer.content = [] ∧
      (written s.effects).length < (written s'.effects).length := by
  rcases handleWrite_cases hgood.output hfits h with
    ⟨hdrains, hdrain⟩ | ⟨hdrains, out, -, hsplit, hempty, new, -, hwritten, rfl⟩
  · refine iff_of_true hdrains ⟨hdrain.content, ?_⟩
    have hpos := hdrains.2.1
    rw [hgood.output.readableBytes_eq] at hpos
    rw [hdrain.written, List.length_append]
    omega
  · refine iff_of_false hdrains fun hdone => ?_
    obtain ⟨hnone, hgrows⟩ := hdone
    rw [hempty.mp hnone] at hsplit
    have hmoved := (List.append_eq_nil_iff.mp hsplit.symm).1
    rw [written_append, hwritten, hmoved, List.append_nil] at hgrows
    exact lt_irrefl _ hgrows

/-- A call completes the output of an open connection when it leaves nothing and the kernel took
something. -/
theorem completes_iff (hgood : s.Good) (hspeaks : call.speaks) (h : callStep s call = some s')
    (hopen : closed s'.effects = false) :
    call.completes s ↔ s'.conn.outputBuffer.content = [] ∧
      (written s.effects).length < (written s'.effects).length := by
  obtain ⟨hlegal, hexec⟩ := callStep_eq_some.mp h
  cases call with
  | send msg w log =>
    simp only [ConnCall.exec, send] at hexec
    split at hexec
    · rename_i hstate
      exact (and_iff_right hstate).trans (sendsAtOnce_iff hgood hlegal hspeaks hexec hopen)
    · rename_i hstate
      obtain rfl := Except.ok.inj hexec
      exact iff_of_false (fun hsends => hstate hsends.1) (fun hdone => lt_irrefl _ hdone.2)
  | sendInLoop msg w log => exact sendsAtOnce_iff hgood hlegal hspeaks hexec hopen
  | handleWrite w => exact drains_iff hgood hlegal hexec
  | shutdown | handleRead r | retrieve len =>
    refine iff_of_false id fun hdone => ?_
    rw [(idle_of_callStep hgood rfl h).written] at hdone
    exact lt_irrefl _ hdone.2

end Io

/-- As long as `handleClose` has not run, as many bytes were given to `sendInLoop` as the kernel has
accepted and `outputBuffer` holds. -/
def Stream.Balanced (s : Stream) : Prop :=
  closed s.io.effects = false →
    s.accepted + s.io.conn.outputBuffer.content.length = s.given.length

/-- `sendInLoop` accounts for every byte of its message. -/
theorem sendInLoop_balanced {s : Stream} {io : Io} {msg : Message} {w : WriteResult} {log : ErrnoTrail}
    (hgood : s.io.Good) (hbalanced : s.Balanced) (hfits : w.fits msg.bytes.length = true)
    (hs : s.io.sendInLoop msg w log = .ok io) (hbefore : closed s.io.effects = false)
    (hopen : closed io.effects = false) :
    (written io.effects).length + io.conn.outputBuffer.content.length =
      (s.given ++ msg.bytes).length := by
  obtain ⟨added, heq, hfailed, hother⟩ := sendInLoop_stream hgood hfits hs hopen
  have hadded : added.length = msg.bytes.length := by
    by_cases hkeep : s.io.keepsFailed w log
    · rw [hfailed hkeep, msg.shifted_length]
    · rw [hother hkeep]
  have hlen := congrArg List.length heq
  have hsum := hbalanced hbefore
  simp only [Stream.accepted, List.length_append] at hlen hsum ⊢
  omega

/-- Every call keeps the balance. -/
theorem Stream.Balanced.step {s s' : Stream} {call : ConnCall} (hgood : s.io.Good)
    (hbalanced : s.Balanced) (hs : streamStep s call = some s') : s'.Balanced := by
  obtain ⟨io, hio, rfl⟩ := Option.map_eq_some_iff.mp hs
  intro hopen
  have hbefore := hgood.open_before hio hopen
  have hsum := hbalanced hbefore
  obtain ⟨hlegal, hexec⟩ := callStep_eq_some.mp hio
  cases call with
  | send msg w log =>
    simp only [ConnCall.exec, Io.send] at hexec
    simp only [ConnCall.given]
    split at hexec
    · rename_i hstate
      rw [if_pos hstate]
      exact sendInLoop_balanced hgood hbalanced hlegal hexec hbefore hopen
    · rename_i hstate
      rw [if_neg hstate, List.append_nil, ← Except.ok.inj hexec]
      exact hsum
  | sendInLoop msg w log => exact sendInLoop_balanced hgood hbalanced hlegal hexec hbefore hopen
  | shutdown | handleRead r | handleWrite w | retrieve len =>
    have hlen := congrArg List.length (other_stream hgood (by simp) hio hopen)
    simp only [Stream.accepted, ConnCall.given, List.length_append, List.append_nil] at hlen hsum ⊢
    omega

/-- The established connection has neither accepted nor been given anything. -/
theorem established_balanced (o : Opening) : Stream.Balanced ⟨o.established, []⟩ := fun _ => by
  simp [Stream.accepted, Opening.established, Opening.constructed, written]

/-- A run of a connection leaves its settings alone. -/
theorem run_settings {s s' : Io} {calls : List ConnCall} (hgood : s.Good)
    (hrun : run callStep s calls = some s') : s'.Good ∧ s'.conn.settings = s.conn.settings := by
  refine invariant_of_steps (I := fun x => x.Good ∧ x.conn.settings = s.conn.settings) ?_ ⟨hgood, rfl⟩
    hrun
  intro x call x' hx hstep
  exact ⟨hx.1.step hstep, (Io.callStep_queues hx.1 hstep).settings.trans hx.2⟩

/-- So does a run of its stream, which keeps the balance. -/
theorem streamRun_settings {s s' : Stream} {calls : List ConnCall} (hgood : s.io.Good)
    (hbalanced : s.Balanced) (hrun : run streamStep s calls = some s') :
    s'.io.Good ∧ s'.io.conn.settings = s.io.conn.settings ∧ s'.Balanced := by
  refine invariant_of_steps
    (I := fun x => x.io.Good ∧ x.io.conn.settings = s.io.conn.settings ∧ x.Balanced) ?_
    ⟨hgood, rfl, hbalanced⟩ hrun
  intro x call x' hx hstep
  obtain ⟨io, hio, rfl⟩ := Option.map_eq_some_iff.mp hstep
  exact ⟨hx.1.step hio, (Io.callStep_queues hx.1 hio).settings.trans hx.2.1, hx.2.2.step hx.1 hstep⟩

/-- On a connection with a write complete callback, every step of a run without a close queues it once if
in that step the kernel accepts the last byte that was given to `sendInLoop` so far, and otherwise not at
all, and never while `outputBuffer` holds bytes. -/
theorem writeComplete_at_drains (o : Opening) (calls : List ConnCall) (call : ConnCall) (s s' : Stream)
    (hset : o.writeCompleteCallback = true) (hspeaks : call.speaks)
    (hrun : run streamStep ⟨o.established, []⟩ calls = some s) (hstep : streamStep s call = some s')
    (hopen : closed s'.io.effects = false) :
    writeCompletes s'.io.effects = writeCompletes s.io.effects +
        (if s'.accepted = s'.given.length ∧ s.accepted < s'.accepted then 1 else 0) ∧
      (writeCompletes s.io.effects < writeCompletes s'.io.effects →
        s'.io.conn.outputBuffer.content = []) := by
  obtain ⟨hgood, hsettings, hbalanced⟩ :=
    streamRun_settings o.established_good (established_balanced o) hrun
  have hset' : s.io.conn.writeCompleteCallback = true :=
    (congrArg (fun set => set.2.1) hsettings).trans hset
  have hsum := hbalanced.step hgood hstep hopen
  obtain ⟨io, hio, rfl⟩ := Option.map_eq_some_iff.mp hstep
  have hcount := Io.callStep_writeCompletes hgood hset' hio
  have hall : (written io.effects).length = (s.given ++ call.given s.io).length ↔
      io.conn.outputBuffer.content = [] := by
    rw [← List.length_eq_zero_iff, ← hsum]
    exact Nat.left_eq_add
  have hiff := Io.completes_iff hgood hspeaks hio hopen
  rw [← hall] at hiff
  simp only [hiff] at hcount
  refine ⟨hcount, fun hmore => hall.mp ?_⟩
  by_contra hnot
  rw [if_neg fun hdone => hnot hdone.1] at hcount
  exact hmore.ne' hcount

/-- A connection with both callbacks and a mark of two bytes. -/
def Opening.marked : Opening :=
  { Opening.fresh with
    highWaterMark := 2
    writeCompleteCallback := true
    highWaterMarkCallback := true }

/-- The connection behind a message of one byte that the kernel took at once. -/
def Stream.said : Stream where
  io := { Opening.marked.established with
    effects := [.connectionCallback true, .write [97], .queueWriteComplete] }
  given := [97]

/-- A message of one byte that the kernel takes at once. -/
theorem writeComplete_at_drains_direct :
    writeCompletes Stream.said.io.effects = writeCompletes Opening.marked.established.effects +
        (if Stream.said.accepted = Stream.said.given.length ∧
          Stream.accepted ⟨Opening.marked.established, []⟩ < Stream.said.accepted then 1 else 0) ∧
      (writeCompletes Opening.marked.established.effects < writeCompletes Stream.said.io.effects →
        Stream.said.io.conn.outputBuffer.content = []) := by
  have hstep : streamStep ⟨Opening.marked.established, []⟩
      (.sendInLoop ⟨0, [97], by decide⟩ (.accepted 1) ⟨id, id⟩) = some .said := rfl
  have hopen : closed Stream.said.io.effects = false := rfl
  exact writeComplete_at_drains .marked [] _ _ _ rfl (by simp [ConnCall.speaks]) rfl hstep hopen

/-- On a connection with a high-water callback, every step of a run queues it exactly if it raises
`outputBuffer` from below the mark to the mark or above, with the length behind the step, and between two
steps that queue it the length was below the mark. -/
theorem highWater_at_crossings (o : Opening) (calls : List ConnCall) (s : Io)
    (hset : o.highWaterMarkCallback = true) (hrun : run callStep o.established calls = some s) :
    (∀ call s', callStep s call = some s' →
      highWaterMarks s'.effects = highWaterMarks s.effects ++
        if s.conn.outputBuffer.readableBytes < o.highWaterMark ∧
            o.highWaterMark ≤ s'.conn.outputBuffer.readableBytes then
          [s'.conn.outputBuffer.readableBytes]
        else []) ∧
    ∀ call s' later t last t', callStep s call = some s' → run callStep s' later = some t →
      callStep t last = some t' → highWaterMarks s'.effects ≠ highWaterMarks s.effects →
      highWaterMarks t'.effects ≠ highWaterMarks t.effects →
      ∃ between rest x, later = between ++ rest ∧ run callStep s' between = some x ∧
        x.conn.outputBuffer.readableBytes < o.highWaterMark := by
  have marks {x x' : Io} {call : ConnCall} (hgood : x.Good)
      (hsettings : x.conn.settings = o.established.conn.settings) (hstep : callStep x call = some x') :
      highWaterMarks x'.effects = highWaterMarks x.effects ++
        if x.conn.outputBuffer.readableBytes < o.highWaterMark ∧
            o.highWaterMark ≤ x'.conn.outputBuffer.readableBytes then
          [x'.conn.outputBuffer.readableBytes]
        else [] := by
    have hmark : x.conn.highWaterMark = o.highWaterMark := congrArg (fun set => set.1) hsettings
    have hset' : x.conn.highWaterMarkCallback = true :=
      (congrArg (fun set => set.2.2) hsettings).trans hset
    rw [← hmark]
    exact Io.callStep_highWaterMarks hgood hset' hstep
  obtain ⟨hgood, hsettings⟩ := run_settings o.established_good hrun
  refine ⟨fun call s' => marks hgood hsettings, ?_⟩
  intro call s' later t last t' hstep hlater hlast _ hmarked
  have hsettings' := (Io.callStep_queues hgood hstep).settings.trans hsettings
  obtain ⟨hgood', hkept⟩ := run_settings (hgood.step hstep) hlater
  refine ⟨later, [], t, (List.append_nil _).symm, hlater, ?_⟩
  by_contra hnot
  refine hmarked ?_
  rw [marks hgood' (hkept.trans hsettings') hlast, if_neg fun hcross => hnot hcross.1, List.append_nil]

/-- The connection behind a message of three bytes of which the kernel took one. -/
def Opening.crossed : Io :=
  (callStep Opening.marked.established
    (.sendInLoop ⟨0, [97, 98, 99], by decide⟩ (.accepted 1) ⟨id, id⟩)).getD Opening.marked.established

set_option maxRecDepth 8192 in
/-- A message of which the kernel leaves as many bytes as the mark. -/
theorem highWater_at_crossings_first :
    highWaterMarks Opening.crossed.effects =
      highWaterMarks [.connectionCallback true] ++
        if 0 < 2 ∧ 2 ≤ Opening.crossed.conn.outputBuffer.readableBytes then
          [Opening.crossed.conn.outputBuffer.readableBytes]
        else [] := by
  have hstep : callStep Opening.marked.established
      (.sendInLoop ⟨0, [97, 98, 99], by decide⟩ (.accepted 1) ⟨id, id⟩) = some Opening.crossed := rfl
  exact (highWater_at_crossings .marked [] Opening.marked.established rfl rfl).1 _ _ hstep

end CcMuduo
