import CcMuduo.Foundation.Run
import CcMuduo.TcpConnection.Calls

/-!
# The interest of an open connection

An open connection should listen to its peer at all times, and ask for room to write exactly while
`outputBuffer` holds bytes. Every call keeps this but one: the `handleWrite` that empties
`outputBuffer` drops the read interest where it should drop the write interest.
-/

namespace CcMuduo

open Foundation

/-- Until `handleClose` has run, the read interest is on, and the write interest is on exactly while
bytes are unsent. -/
def InterestMatches (s : Io) : Prop :=
  closed s.effects = true ∨
    s.conn.channel.isReading = true ∧
      (s.conn.channel.isWriting = true ↔ s.conn.outputBuffer.content ≠ [])

instance : DecidablePred InterestMatches := fun s =>
  inferInstanceAs (Decidable (closed s.effects = true ∨
    s.conn.channel.isReading = true ∧
      (s.conn.channel.isWriting = true ↔ s.conn.outputBuffer.content ≠ [])))

/-- The call is not a `handleWrite` that empties `outputBuffer`. -/
def leavesUnsent (s : Io) : ConnCall → Prop
  | .handleWrite w => ¬ s.drains w
  | _ => True

/-- A call that changes neither the interest, nor whether the connection is closed, nor whether bytes
are unsent, keeps the interest right. -/
theorem interest_of_same {s s' : Io} (hevents : s'.conn.channel.events = s.conn.channel.events)
    (hclosed : closed s'.effects = closed s.effects)
    (hcontent : s'.conn.outputBuffer.content = [] ↔ s.conn.outputBuffer.content = [])
    (h : InterestMatches s) : InterestMatches s' := by
  unfold InterestMatches at h ⊢
  simp only [Channel.isWriting, Channel.isReading] at h ⊢
  rw [hevents, hclosed, ne_eq, hcontent]
  exact h

/-- Sending on an open connection turns the write interest on exactly when it leaves bytes behind. -/
theorem interest_of_sent {s s' : Io} {taken rest : List UInt8} (hgood : s.Good)
    (hstate : s.conn.state ≠ .kDisconnected) (hsent : Io.Sent s s' taken rest)
    (h : InterestMatches s) : InterestMatches s' := by
  obtain hclosed | ⟨hreading, hwriting⟩ := h
  · exact absurd (hgood.closed_iff.mp hclosed) hstate
  · refine .inr ⟨hsent.reading ▸ hreading, ?_⟩
    rw [hsent.writing, hsent.content, Bool.or_eq_true, hwriting]
    cases rest <;> simp

/-- `sendInLoop` keeps the interest right. -/
theorem interest_of_sendInLoop {s s' : Io} {msg : Message} {w : WriteResult} {log : ErrnoTrail}
    (hgood : s.Good) (hfits : w.fits msg.bytes.length = true)
    (hexec : s.sendInLoop msg w log = .ok s') (h : InterestMatches s) : InterestMatches s' := by
  rcases Io.sendInLoop_cases hgood.output hfits hexec with
    ⟨-, rfl⟩ | ⟨-, -, -, new, -, hclose⟩ | ⟨hstate, -, -, hsent⟩ | ⟨hstate, -, hsent⟩
  · exact h
  · exact .inl hclose.closed
  · exact interest_of_sent hgood hstate hsent h
  · exact interest_of_sent hgood hstate hsent h

/-- `shutdown` leaves the interest and the buffers alone. -/
theorem interest_of_shutdown {s : Io} (h : InterestMatches s) : InterestMatches s.shutdown := by
  have hclosed := Io.Good.closed_shutdown s
  refine interest_of_same ?_ hclosed ?_ h <;> unfold Io.shutdown Io.shutdownInLoop
  · split
    · split <;> rfl
    · rfl
  · split
    · split <;> rfl
    · rfl

/-- One call on a connection with the right interest leaves it right exactly when it is not a
`handleWrite` that empties `outputBuffer`. -/
theorem callStep_interest_iff {s s' : Io} {call : ConnCall} (hgood : s.Good)
    (h : InterestMatches s) (hstep : callStep s call = some s') :
    InterestMatches s' ↔ leavesUnsent s call := by
  obtain ⟨hlegal, hexec⟩ := callStep_eq_some.mp hstep
  cases call with
  | send msg w log =>
    refine iff_of_true ?_ trivial
    simp only [ConnCall.exec, Io.send] at hexec
    split at hexec
    · exact interest_of_sendInLoop hgood hlegal hexec h
    · exact Except.ok.inj hexec ▸ h
  | sendInLoop msg w log =>
    exact iff_of_true (interest_of_sendInLoop hgood hlegal hexec h) trivial
  | shutdown => exact iff_of_true (Except.ok.inj hexec ▸ interest_of_shutdown h) trivial
  | handleRead r =>
    refine iff_of_true ?_ trivial
    rcases Io.handleRead_cases hgood.input hexec with
      ⟨-, -, rfl⟩ | ⟨-, input, -, hclose⟩ | ⟨bytes, rfl, -, hread⟩
    · exact h
    · exact .inl hclose.closed
    · obtain ⟨input, -, -, rfl⟩ := hread (by simpa [ConnCall.legal] using hlegal)
      refine interest_of_same (s := s) rfl ?_ Iff.rfl h
      rw [closed_append, Bool.or_eq_left_iff_imp]
      simp [closed]
  | handleWrite w =>
    rcases Io.handleWrite_cases hgood.output hlegal hexec with
      ⟨hdrains, hdrain⟩ | ⟨hdrains, out, -, -, hempty, new, hsend, -, rfl⟩
    · refine iff_of_false ?_ (fun hleaves => hleaves hdrains)
      rintro (hclosed | ⟨hreading, -⟩)
      · rw [(hgood.open_of_drained hdrains hdrain).2] at hclosed
        contradiction
      · rw [hdrain.reading] at hreading
        contradiction
    · refine iff_of_true (interest_of_same (s := s) rfl ?_ hempty h) hdrains
      rw [closed_append, closed_of_isSend hsend, Bool.or_false]
  | retrieve len =>
    exact iff_of_true (Except.ok.inj hexec ▸ interest_of_same (s := s) rfl rfl Iff.rfl h) trivial

/-- The established connection listens, and has nothing to write. -/
theorem established_interest (o : Opening) : InterestMatches o.established := by
  refine .inr ⟨(by decide : hasAny kReadEvent kReadEvent = true), ?_⟩
  simp only [Opening.established, Opening.constructed, Buffer.initial_content, ne_eq,
    not_true_eq_false, iff_false]
  exact (by decide : ¬ hasAny kReadEvent kWriteEvent = true)

/-- The interest of an open connection is right in every state of a run exactly when no
`handleWrite` of the run empties `outputBuffer`. -/
theorem interest_matches_iff (o : Opening) (calls : List ConnCall) :
    Everywhere callStep InterestMatches o.established calls ↔
      Along callStep leavesUnsent o.established calls := by
  refine everywhere_iff_along (I := fun s => s.Good ∧ InterestMatches s) (fun s h => h.2) ?_ ?_
    calls ⟨o.established_good, established_interest o⟩
  · intro s call s' hs hleaves hstep
    obtain ⟨hgood, h⟩ := hs
    exact ⟨hgood.step hstep, (callStep_interest_iff hgood h hstep).mpr hleaves⟩
  · intro s call s' hs hdrains hstep h'
    obtain ⟨hgood, h⟩ := hs
    exact hdrains ((callStep_interest_iff hgood h hstep).mp h')

/-- A short write followed by the event that sends the rest leaves the connection deaf. -/
theorem interest_after_drain :
    ¬ Everywhere callStep InterestMatches Opening.fresh.established
      [.send ⟨0, [97, 98, 99], by decide⟩ (.accepted 1) ⟨id, id⟩, .handleWrite (.accepted 2)] := by
  decide +kernel

end CcMuduo
