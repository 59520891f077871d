import CcMuduo.Foundation.Run
import CcMuduo.TcpConnection.Calls

/-!
# The output stream

The bytes given to `sendInLoop` leave the connection in two ways: straight into the kernel, or
through `outputBuffer`. The stream is intact when what the kernel has taken, followed by what is
still buffered, is what was given.

The one place where the stream breaks is the offset `nwroter` of a direct `::write` that failed: it
is `-1`, so the message is kept from the byte in front of it on, without its last byte.
-/

namespace CcMuduo

open Foundation

/-- A connection and the bytes given to its `sendInLoop` so far. -/
structure Stream where
  io : Io
  given : List UInt8

/-- What a call gives to `sendInLoop`; `send` passes its message on only while connected. -/
def ConnCall.given (s : Io) : ConnCall → List UInt8
  | .send msg _ _ => if s.conn.state = .kConnected then msg.bytes else []
  | .sendInLoop msg _ _ => msg.bytes
  | _ => []

/-- One call, with its message added to what was given. -/
def streamStep (s : Stream) (call : ConnCall) : Option Stream :=
  (callStep s.io call).map fun io => ⟨io, s.given ++ call.given s.io⟩

/-- As long as `handleClose` has not run, no byte was lost, duplicated, reordered or invented. -/
def Intact (s : Stream) : Prop :=
  closed s.io.effects = false →
    written s.io.effects ++ s.io.conn.outputBuffer.content = s.given

instance : DecidablePred Intact := fun s =>
  inferInstanceAs (Decidable (closed s.io.effects = false →
    written s.io.effects ++ s.io.conn.outputBuffer.content = s.given))

/-- A direct `::write` of the message fails and the message is kept for later. -/
def Io.keepsFailed (s : Io) (w : WriteResult) (log : ErrnoTrail) : Prop :=
  s.conn.state ≠ .kDisconnected ∧ s.writesDirectly = true ∧ (∃ errno, w = .failed errno) ∧
    w.closes log = false

/-- When a direct `::write` fails and the message is kept for later, each of its bytes is the byte
that stands in memory in front of the message. -/
def offsetHarmless (s : Stream) : ConnCall → Prop
  | .send msg w log =>
    s.io.conn.state = .kConnected → s.io.keepsFailed w log → ∀ b ∈ msg.bytes, b = msg.before
  | .sendInLoop msg w log => s.io.keepsFailed w log → ∀ b ∈ msg.bytes, b = msg.before
  | _ => True

/-- Shifting a list by one place, with a new byte in front, changes it unless every byte is that
byte. -/
theorem take_cons_eq_self (b : UInt8) (l : List UInt8) :
    (b :: l).take l.length = l ↔ ∀ x ∈ l, x = b := by
  induction l generalizing b with
  | nil => simp
  | cons c rest ih =>
    rw [List.length_cons, List.take_succ_cons, List.cons.injEq, ih, List.forall_mem_cons]
    exact ⟨fun ⟨hb, hrest⟩ => ⟨hb.symm, fun x hx => (hrest x hx).trans hb.symm⟩,
      fun ⟨hc, hrest⟩ => ⟨hc.symm, fun x hx => (hrest x hx).trans hc.symm⟩⟩

/-- The shifted message is the message when all its bytes are the byte in front of it. -/
theorem Message.shifted_eq_iff (msg : Message) :
    msg.shifted = msg.bytes ↔ ∀ b ∈ msg.bytes, b = msg.before :=
  take_cons_eq_self msg.before msg.bytes

/-- What `sendInLoop` adds to the stream of an open connection: the message, or the shifted message
after a direct `::write` that failed. -/
theorem sendInLoop_stream {s s' : Io} {msg : Message} {w : WriteResult} {log : ErrnoTrail}
    (hgood : s.Good) (hfits : w.fits msg.bytes.length = true)
    (hs : s.sendInLoop msg w log = .ok s') (hopen : closed s'.effects = false) :
    ∃ added, written s'.effects ++ s'.conn.outputBuffer.content =
        written s.effects ++ s.conn.outputBuffer.content ++ added ∧
      (s.keepsFailed w log → added = msg.shifted) ∧
      (¬ s.keepsFailed w log → added = msg.bytes) := by
  rcases Io.sendInLoop_cases hgood.output hfits hs with
    ⟨hstate, rfl⟩ | ⟨-, -, -, new, -, hclose⟩ | ⟨hstate, hdirect, hcloses, hsent⟩ |
      ⟨-, hdirect, hsent⟩
  · rw [hgood.closed_iff.mpr hstate] at hopen
    contradiction
  · rw [hclose.closed] at hopen
    contradiction
  · have hempty := Io.content_of_writesDirectly hgood.output hdirect
    refine ⟨w.taken msg ++ w.kept msg, ?_, ?_, ?_⟩
    · rw [hsent.written, hsent.content, hempty, List.append_nil, List.nil_append,
        List.append_assoc]
    · rintro ⟨-, -, ⟨errno, rfl⟩, -⟩
      rfl
    · intro hkeep
      cases w with
      | accepted n => exact List.take_append_drop n msg.bytes
      | failed errno => exact absurd ⟨hstate, hdirect, ⟨errno, rfl⟩, hcloses⟩ hkeep
  · refine ⟨msg.bytes, ?_, ?_, fun _ => rfl⟩
    · rw [hsent.written, hsent.content, List.append_nil, List.append_assoc]
    · rintro ⟨-, hd, -⟩
      rw [hdirect] at hd
      contradiction

/-- A call that gives nothing to `sendInLoop` leaves the stream as it is. -/
theorem other_stream {s s' : Io} {call : ConnCall} (hgood : s.Good)
    (hcall : ∀ msg w log, call ≠ .send msg w log ∧ call ≠ .sendInLoop msg w log)
    (hs : callStep s call = some s') (hopen : closed s'.effects = false) :
    written s'.effects ++ s'.conn.outputBuffer.content =
      written s.effects ++ s.conn.outputBuffer.content := by
  obtain ⟨hlegal, hexec⟩ := callStep_eq_some.mp hs
  cases call with
  | send msg w log => exact absurd rfl (hcall msg w log).1
  | sendInLoop msg w log => exact absurd rfl (hcall msg w log).2
  | shutdown =>
    rw [← Except.ok.inj hexec]
    unfold Io.shutdown Io.shutdownInLoop
    split
    · split
      · simp [Io.emit, Io.setState, written]
      · rfl
    · rfl
  | handleRead r =>
    rcases Io.handleRead_cases hgood.input hexec with
      ⟨-, -, rfl⟩ | ⟨-, input, -, hclose⟩ | ⟨bytes, rfl, -, hread⟩
    · rfl
    · rw [hclose.closed] at hopen
      contradiction
    · obtain ⟨input, -, -, rfl⟩ := hread (by simpa [ConnCall.legal] using hlegal)
      simp [written]
  | handleWrite w =>
    rcases Io.handleWrite_cases hgood.output hlegal hexec with
      ⟨-, hdrain⟩ | ⟨-, out, -, hsplit, -, new, -, hwritten, rfl⟩
    · rw [hdrain.written, hdrain.content, List.append_nil]
    · rw [written_append, hwritten, hsplit, List.append_assoc]
  | retrieve len => rw [← Except.ok.inj hexec]

/-- An open connection had its stream intact before the call, also when it was closed since. -/
theorem Intact.eq {s : Stream} (h : Intact s) (hopen : closed s.io.effects = false) :
    written s.io.effects ++ s.io.conn.outputBuffer.content = s.given := h hopen

/-- `sendInLoop` keeps the stream intact exactly when the offset does no harm. -/
theorem sendInLoop_intact_iff {s : Stream} {io : Io} {msg : Message} {w : WriteResult}
    {log : ErrnoTrail} (hgood : s.io.Good) (hintact : Intact s)
    (hlegal : (ConnCall.sendInLoop msg w log).legal s.io = true)
    (hs : s.io.sendInLoop msg w log = .ok io) :
    Intact ⟨io, s.given ++ msg.bytes⟩ ↔ offsetHarmless s (.sendInLoop msg w log) := by
  have hstep : callStep s.io (.sendInLoop msg w log) = some io := callStep_eq_some.mpr ⟨hlegal, hs⟩
  cases hclosed : closed io.effects with
  | true =>
    refine iff_of_true (fun hopen => ?_) (fun hkeep => ?_)
    · rw [hclosed] at hopen
      contradiction
    · obtain ⟨hstate, hdirect, -, hcloses⟩ := hkeep
      exfalso
      rcases Io.sendInLoop_cases hgood.output hlegal hs with
        ⟨hdown, -⟩ | ⟨-, -, hc, -⟩ | ⟨-, -, -, hsent⟩ | ⟨-, -, hsent⟩
      · exact hstate hdown
      · rw [hcloses] at hc
        contradiction
      all_goals
        rw [hgood.open_of_sent hstate hsent] at hclosed
        contradiction
  | false =>
    have hbefore := hintact.eq (hgood.open_before hstep hclosed)
    obtain ⟨added, heq, hfailed, hother⟩ := sendInLoop_stream hgood hlegal hs hclosed
    rw [hbefore] at heq
    have hiff : Intact ⟨io, s.given ++ msg.bytes⟩ ↔ added = msg.bytes := by
      refine ⟨fun h => ?_, fun h _ => by rw [heq, h]⟩
      exact List.append_cancel_left (heq.symm.trans (h hclosed))
    rw [hiff]
    by_cases hkeep : s.io.keepsFailed w log
    · rw [hfailed hkeep, msg.shifted_eq_iff]
      exact ⟨fun h _ => h, fun h => h hkeep⟩
    · exact iff_of_true (hother hkeep) (fun h => absurd h hkeep)

/-- One call on an intact stream leaves it intact exactly when the offset does no harm. -/
theorem streamStep_intact_iff {s s' : Stream} {call : ConnCall} (hgood : s.io.Good)
    (hintact : Intact s) (hs : streamStep s call = some s') :
    Intact s' ↔ offsetHarmless s call := by
  obtain ⟨io, hio, rfl⟩ := Option.map_eq_some_iff.mp hs
  obtain ⟨hlegal, hexec⟩ := callStep_eq_some.mp hio
  have same (hcall : ∀ msg w log, call ≠ .send msg w log ∧ call ≠ .sendInLoop msg w log) :
      Intact ⟨io, s.given⟩ := by
    intro hopen
    exact (other_stream hgood hcall hio hopen).trans (hintact (hgood.open_before hio hopen))
  cases call with
  | send msg w log =>
    simp only [ConnCall.exec, Io.send] at hexec
    simp only [ConnCall.given, offsetHarmless]
    split at hexec
    · rename_i hstate
      rw [if_pos hstate, sendInLoop_intact_iff hgood hintact hlegal hexec]
      exact ⟨fun h _ => h, fun h => h hstate⟩
    · rename_i hstate
      rw [if_neg hstate, List.append_nil, ← Except.ok.inj hexec]
      exact iff_of_true hintact (fun h => absurd h hstate)
  | sendInLoop msg w log => exact sendInLoop_intact_iff hgood hintact hlegal hexec
  | shutdown | handleRead r | handleWrite w | retrieve len =>
    simp only [ConnCall.given, List.append_nil, offsetHarmless, iff_true]
    exact same (by simp)

/-- The output stream of a connection is intact throughout a run exactly when, at every direct
`::write` of the run that fails and leaves its message to be kept, the message consists of copies of
the byte in front of it. -/
theorem outputStream_intact_iff (o : Opening) (calls : List ConnCall) :
    Everywhere streamStep Intact ⟨o.established, []⟩ calls ↔
      Along streamStep offsetHarmless ⟨o.established, []⟩ calls := by
  refine everywhere_iff_along (I := fun s => s.io.Good ∧ Intact s) (fun s h => h.2) ?_ ?_ calls
    ⟨o.established_good, fun _ => by simp [Opening.established, Opening.constructed, written]⟩
  · intro s call s' hs hc hstep
    obtain ⟨hgood, hintact⟩ := hs
    refine ⟨?_, (streamStep_intact_iff hgood hintact hstep).mpr hc⟩
    obtain ⟨io, hio, rfl⟩ := Option.map_eq_some_iff.mp hstep
    exact hgood.step hio
  · intro s call s' hs hc hstep h
    obtain ⟨hgood, hintact⟩ := hs
    exact hc ((streamStep_intact_iff hgood hintact hstep).mp h)

/-- A kernel without room makes the first message of a connection leave with a foreign byte in front
and without its last byte. -/
theorem outputStream_shifted :
    ¬ Everywhere streamStep Intact ⟨Opening.fresh.established, []⟩
      [.send ⟨0, [97, 98, 99], by decide⟩ (.failed EWOULDBLOCK) ⟨id, id⟩] := by
  decide +kernel

end CcMuduo
