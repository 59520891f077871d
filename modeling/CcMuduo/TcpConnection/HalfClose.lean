import CcMuduo.Foundation.Run
import CcMuduo.TcpConnection.Calls

/-!
# The half-close

`shutdown` closes the write side at once when nothing waits to be written; else the `handleWrite`
that sends the last byte has to. Both look at the write interest to see whether bytes are waiting.

The write interest survives the drain of `outputBuffer`, so a `shutdown` that meets it, in either
place, never closes the write side.
-/

namespace CcMuduo

open Foundation

/-- For each call of `shutdownWrite`, how many bytes were unsent. -/
def shutdownWrites (effects : List Effect) : List ℕ :=
  effects.filterMap fun
    | .shutdownWrite unsent => some unsent
    | _ => none

@[simp] theorem shutdownWrites_append (l₁ l₂ : List Effect) :
    shutdownWrites (l₁ ++ l₂) = shutdownWrites l₁ ++ shutdownWrites l₂ :=
  List.filterMap_append

/-- Sending never closes the write side. -/
theorem shutdownWrites_of_isSend {l : List Effect} (h : ∀ e ∈ l, e.isSend = true) :
    shutdownWrites l = [] := by
  rw [shutdownWrites, List.filterMap_eq_nil_iff]
  intro e he
  have := h e he
  cases e <;> simp_all [Effect.isSend]

/-- One call of the loop thread, where every message comes through `send`. -/
def sendStep (s : Io) : ConnCall → Option Io
  | .sendInLoop _ _ _ => none
  | call => callStep s call

/-- Until the connection is closed, the write side is not closed with bytes unsent, and once a
`shutdown` has nothing to wait for any more it has been closed exactly once. -/
def HalfCloses (s : Io) : Prop :=
  closed s.effects = true ∨
    (∀ unsent ∈ shutdownWrites s.effects, unsent = 0) ∧
      (s.conn.state = .kDisconnecting → s.conn.outputBuffer.content = [] →
        (shutdownWrites s.effects).length = 1)

instance : DecidablePred HalfCloses := fun s =>
  inferInstanceAs (Decidable (closed s.effects = true ∨
    (∀ unsent ∈ shutdownWrites s.effects, unsent = 0) ∧
      (s.conn.state = .kDisconnecting → s.conn.outputBuffer.content = [] →
        (shutdownWrites s.effects).length = 1)))

/-- A `shutdown` that takes effect does not meet the write interest on an empty `outputBuffer`, and
no `handleWrite` empties `outputBuffer` after it. -/
def avoidsDrained (s : Io) : ConnCall → Prop
  | .shutdown => s.conn.state = .kConnected → s.conn.channel.isWriting = true →
      s.conn.outputBuffer.content ≠ []
  | .handleWrite w => s.conn.state = .kDisconnecting → ¬ s.drains w
  | _ => True

/-- What every call keeps: unsent bytes turn the write interest on, and the write side of an open
connection is closed exactly when `shutdown` has taken effect and the write interest is off. -/
structure Closing (s : Io) : Prop where
  good : s.Good
  unsent : s.conn.outputBuffer.content ≠ [] → closed s.effects = false →
    s.conn.channel.isWriting = true
  shut : closed s.effects = false →
    s.conn.state = .kConnected ∧ shutdownWrites s.effects = [] ∨
      s.conn.state = .kDisconnecting ∧
        shutdownWrites s.effects = if s.conn.channel.isWriting then [] else [0]

/-- An open connection half-closes unless it waits with the write interest on and nothing to
write. -/
theorem Closing.halfCloses_iff {s : Io} (h : Closing s) :
    HalfCloses s ↔ closed s.effects = true ∨
      ¬ (s.conn.state = .kDisconnecting ∧ s.conn.outputBuffer.content = [] ∧
        s.conn.channel.isWriting = true) := by
  unfold HalfCloses
  cases hclosed : closed s.effects with
  | true => simp
  | false =>
    obtain ⟨hstate, hshut⟩ | ⟨hstate, hshut⟩ := h.shut hclosed
    · simp [hstate, hshut]
    · cases hwriting : s.conn.channel.isWriting <;> simp [hstate, hshut, hwriting]

/-- A call that keeps the interest, the state and the emptiness of the buffer, and neither closes the
connection nor its write side, keeps `Closing`, and half-closes after it if before. -/
theorem Closing.of_same {s s' : Io} (h : Closing s) (hgood : s'.Good)
    (hchannel : s'.conn.channel = s.conn.channel) (hstate : s'.conn.state = s.conn.state)
    (hcontent : s'.conn.outputBuffer.content = [] ↔ s.conn.outputBuffer.content = [])
    (hclosed : closed s'.effects = closed s.effects)
    (hshut : shutdownWrites s'.effects = shutdownWrites s.effects) :
    Closing s' ∧ (HalfCloses s → HalfCloses s') := by
  have h' : Closing s' := by
    refine ⟨hgood, ?_, ?_⟩
    · rw [ne_eq, hcontent, hclosed, hchannel]
      exact h.unsent
    · rw [hclosed, hstate, hshut, hchannel]
      exact h.shut
  refine ⟨h', ?_⟩
  rw [h.halfCloses_iff, h'.halfCloses_iff, hclosed, hstate, hcontent, hchannel]
  exact id

/-- A closed connection owes no half-close. -/
theorem closing_of_closedAfter {s s' : Io} {new : List Effect} (hgood : s'.Good)
    (h : Io.ClosedAfter s s' new) : Closing s' ∧ HalfCloses s' := by
  have hclosed := h.closed
  exact ⟨⟨hgood, by simp [hclosed], by simp [hclosed]⟩, .inl hclosed⟩

/-- Sending on a connected connection. -/
theorem Closing.of_sent {s s' : Io} {taken rest : List UInt8} (h : Closing s)
    (hstate : s.conn.state = .kConnected) (hsent : Io.Sent s s' taken rest) :
    Closing s' ∧ HalfCloses s' := by
  have hconnected : s.conn.state ≠ .kDisconnected := by simp [hstate]
  have hopen' := h.good.open_of_sent hconnected hsent
  have hopen : closed s.effects = false := by
    rw [← Bool.not_eq_true, h.good.closed_iff]
    exact hconnected
  have hshut : shutdownWrites s.effects = [] := by
    obtain ⟨-, hshut⟩ | ⟨hdown, -⟩ := h.shut hopen
    · exact hshut
    · rw [hstate] at hdown
      contradiction
  obtain ⟨new, hnew, hsend⟩ := hsent.sends
  have h' : Closing s' := by
    refine ⟨h.good.of_sent hconnected hsent, fun hcontent _ => ?_, fun _ => .inl ⟨?_, ?_⟩⟩
    · rw [hsent.writing, Bool.or_eq_true]
      rw [hsent.content] at hcontent
      by_cases hold : s.conn.outputBuffer.content = []
      · right
        rw [hold, List.nil_append] at hcontent
        simpa using hcontent
      · exact .inl (h.unsent hold hopen)
    · rw [hsent.state, hstate]
    · rw [hnew, shutdownWrites_append, hshut, shutdownWrites_of_isSend hsend, List.append_nil]
  refine ⟨h', h'.halfCloses_iff.mpr (.inr ?_)⟩
  rw [hsent.state, hstate]
  simp

/-- `send` keeps the half-close. -/
theorem Closing.of_send {s s' : Io} {msg : Message} {w : WriteResult} {log : ErrnoTrail}
    (h : Closing s) (hhalf : HalfCloses s) (hfits : w.fits msg.bytes.length = true)
    (hs : s.send msg w log = .ok s') : Closing s' ∧ HalfCloses s' := by
  unfold Io.send at hs
  split at hs
  · rename_i hstate
    rcases Io.sendInLoop_cases h.good.output hfits hs with
      ⟨-, rfl⟩ | ⟨-, -, -, new, -, hclose⟩ | ⟨-, -, -, hsent⟩ | ⟨-, -, hsent⟩
    · exact ⟨h, hhalf⟩
    · exact closing_of_closedAfter (h.good.of_closedAfter hclose) hclose
    · exact h.of_sent hstate hsent
    · exact h.of_sent hstate hsent
  · exact Except.ok.inj hs ▸ ⟨h, hhalf⟩

/-- `shutdown` keeps the half-close unless it meets a write interest that a drain left behind. -/
theorem Closing.of_shutdown {s : Io} (h : Closing s) (hhalf : HalfCloses s) :
    Closing s.shutdown ∧ (HalfCloses s.shutdown ↔ avoidsDrained s .shutdown) := by
  by_cases hstate : s.conn.state = .kConnected
  · have hopen : closed s.effects = false := by
      rw [← Bool.not_eq_true, h.good.closed_iff, hstate]
      simp
    have hshut : shutdownWrites s.effects = [] := by
      obtain ⟨-, hshut⟩ | ⟨hdown, -⟩ := h.shut hopen
      · exact hshut
      · rw [hstate] at hdown
        contradiction
    have hgood' := h.good.of_shutdown
    have hopen' : closed s.shutdown.effects = false := (Io.Good.closed_shutdown s).trans hopen
    have heq : s.shutdown = if s.conn.channel.isWriting then s.setState .kDisconnecting
        else (s.setState .kDisconnecting).emit
          (.shutdownWrite s.conn.outputBuffer.readableBytes) := by
      unfold Io.shutdown Io.shutdownInLoop
      rw [if_pos hstate]
      cases hwriting : s.conn.channel.isWriting <;> simp [Io.setState, hwriting]
    cases hwriting : s.conn.channel.isWriting with
    | true =>
      rw [hwriting, if_pos rfl] at heq
      rw [heq] at hgood' hopen' ⊢
      have h' : Closing (s.setState .kDisconnecting) := by
        refine ⟨hgood', fun _ _ => hwriting, fun _ => .inr ⟨rfl, ?_⟩⟩
        simp [Io.setState, hwriting, hshut]
      refine ⟨h', ?_⟩
      rw [h'.halfCloses_iff]
      simp [avoidsDrained, Io.setState, hstate, hwriting, hopen]
    | false =>
      rw [hwriting, if_neg (by decide)] at heq
      rw [heq] at hgood' hopen' ⊢
      have hempty : s.conn.outputBuffer.content = [] := by
        by_contra hne
        have := h.unsent hne hopen
        rw [hwriting] at this
        contradiction
      have h' : Closing ((s.setState .kDisconnecting).emit
          (.shutdownWrite s.conn.outputBuffer.readableBytes)) := by
        refine ⟨hgood', fun hne => absurd hempty hne, fun _ => .inr ⟨rfl, ?_⟩⟩
        have hzero := h.good.output.readableBytes_eq_zero_iff.mpr hempty
        have hnew : shutdownWrites [.shutdownWrite s.conn.outputBuffer.readableBytes] = [0] := by
          rw [hzero]
          rfl
        simp [Io.setState, Io.emit, hwriting, hshut, hnew]
      refine ⟨h', ?_⟩
      rw [h'.halfCloses_iff]
      simp [avoidsDrained, Io.setState, Io.emit, hwriting]
  · have heq : s.shutdown = s := if_neg hstate
    rw [heq]
    exact ⟨h, iff_of_true hhalf (fun hc => absurd hc hstate)⟩

/-- `handleWrite` keeps the half-close unless it drains the buffer after a `shutdown`. -/
theorem Closing.of_handleWrite {s s' : Io} {w : WriteResult} (h : Closing s) (hhalf : HalfCloses s)
    (hfits : w.fits s.conn.outputBuffer.readableBytes = true) (hs : s.handleWrite w = .ok s') :
    Closing s' ∧ (HalfCloses s' ↔ avoidsDrained s (.handleWrite w)) := by
  rcases Io.handleWrite_cases h.good.output hfits hs with
    ⟨hdrains, hdrain⟩ | ⟨hdrains, out, hinv, -, hempty, new, hsend, -, rfl⟩
  · obtain ⟨hopen, hopen'⟩ := h.good.open_of_drained hdrains hdrain
    obtain ⟨new, hnew, hsend⟩ := hdrain.sends
    have h' : Closing s' := by
      refine ⟨h.good.of_handleWrite hfits hs, fun hne => absurd hdrain.content hne, fun _ => ?_⟩
      rw [hdrain.state, hdrain.writing, hnew, shutdownWrites_append,
        shutdownWrites_of_isSend hsend, List.append_nil]
      simpa [hdrains.1] using h.shut hopen
    refine ⟨h', ?_⟩
    rw [h'.halfCloses_iff, hdrain.state, hdrain.content, hdrain.writing, hopen']
    simp [avoidsDrained, hdrains]
  · obtain ⟨h', hhalf'⟩ := h.of_same (h.good.of_handleWrite hfits hs) rfl rfl hempty
      (by rw [closed_append, closed_of_isSend hsend, Bool.or_false])
      (by rw [shutdownWrites_append, shutdownWrites_of_isSend hsend, List.append_nil])
    exact ⟨h', iff_of_true (hhalf' hhalf) (fun _ => hdrains)⟩

/-- One call on a connection that half-closes keeps it so exactly when it avoids a drained buffer. -/
theorem Closing.step {s s' : Io} {call : ConnCall} (h : Closing s) (hhalf : HalfCloses s)
    (hstep : sendStep s call = some s') :
    Closing s' ∧ (HalfCloses s' ↔ avoidsDrained s call) := by
  cases call with
  | sendInLoop msg w log => contradiction
  | send msg w log =>
    obtain ⟨hlegal, hexec⟩ := callStep_eq_some.mp hstep
    obtain ⟨h', hhalf'⟩ := h.of_send hhalf hlegal hexec
    exact ⟨h', iff_of_true hhalf' trivial⟩
  | shutdown =>
    obtain ⟨-, hexec⟩ := callStep_eq_some.mp hstep
    exact Except.ok.inj hexec ▸ h.of_shutdown hhalf
  | handleRead r =>
    have hgood' := h.good.step hstep
    obtain ⟨hlegal, hexec⟩ := callStep_eq_some.mp hstep
    rcases Io.handleRead_cases h.good.input hexec with
      ⟨-, -, rfl⟩ | ⟨-, input, -, hclose⟩ | ⟨bytes, rfl, -, hread⟩
    · exact ⟨h, iff_of_true hhalf trivial⟩
    · obtain ⟨h', hhalf'⟩ := closing_of_closedAfter hgood' hclose
      exact ⟨h', iff_of_true hhalf' trivial⟩
    · obtain ⟨input, -, -, rfl⟩ := hread (by simpa [ConnCall.legal] using hlegal)
      obtain ⟨h', hhalf'⟩ := h.of_same hgood' rfl rfl Iff.rfl
        (by rw [closed_append, Bool.or_eq_left_iff_imp]; simp [closed])
        (by rw [shutdownWrites_append]; simp [shutdownWrites])
      exact ⟨h', iff_of_true (hhalf' hhalf) trivial⟩
  | handleWrite w =>
    obtain ⟨hlegal, hexec⟩ := callStep_eq_some.mp hstep
    exact h.of_handleWrite hhalf hlegal hexec
  | retrieve len =>
    have hgood' := h.good.step hstep
    obtain ⟨-, hexec⟩ := callStep_eq_some.mp hstep
    obtain rfl := Except.ok.inj hexec
    obtain ⟨h', hhalf'⟩ := h.of_same hgood' rfl rfl Iff.rfl rfl rfl
    exact ⟨h', iff_of_true (hhalf' hhalf) trivial⟩

/-- The established connection has nothing to write and its write side is open. -/
theorem established_closing (o : Opening) : Closing o.established ∧ HalfCloses o.established := by
  have h : Closing o.established := by
    refine ⟨o.established_good, fun hne => absurd Buffer.initial_content hne, fun _ => .inl ⟨rfl, ?_⟩⟩
    simp [Opening.established, shutdownWrites]
  exact ⟨h, h.halfCloses_iff.mpr (.inr (by simp [Opening.established]))⟩

/-- A connection half-closes as it should in every state of a run exactly when no `shutdown` of the
run takes effect on a drained `outputBuffer` whose write interest is still on, and no `handleWrite`
drains `outputBuffer` after a `shutdown`. -/
theorem halfClose_iff (o : Opening) (calls : List ConnCall) :
    Everywhere sendStep HalfCloses o.established calls ↔
      Along sendStep avoidsDrained o.established calls := by
  refine everywhere_iff_along (I := fun s => Closing s ∧ HalfCloses s) (fun s h => h.2) ?_ ?_
    calls (established_closing o)
  · intro s call s' hs havoids hstep
    obtain ⟨h, hhalf⟩ := hs
    obtain ⟨h', hiff⟩ := h.step hhalf hstep
    exact ⟨h', hiff.mpr havoids⟩
  · intro s call s' hs havoids hstep hhalf'
    obtain ⟨h, hhalf⟩ := hs
    exact havoids ((h.step hhalf hstep).2.mp hhalf')

/-- A `shutdown` behind a short write never closes the write side. -/
theorem halfClose_after_short_write :
    ¬ Everywhere sendStep HalfCloses Opening.fresh.established
      [.send ⟨0, [97, 98, 99], by decide⟩ (.accepted 1) ⟨id, id⟩, .shutdown,
        .handleWrite (.accepted 2)] := by
  decide +kernel

end CcMuduo
