import CcMuduo.Buffer.ScatterRead
import CcMuduo.TcpConnection.Lifetime

/-!
# Which functions of a connection complete

A report to the poller ends the process when `index`, the map and the kernel set disagree about the
channel. On a settled connection they agree, so every report completes, and a handler can fail only
where a vector has to grow beyond its maximal size.
-/

namespace CcMuduo

open Foundation

namespace Io

variable {s : Io}

/-- A report about a tracked channel completes. -/
theorem onChannel_completes (h : s.poller.Tracks s.conn.channel) (m : Mask → Mask) :
    ∃ x, s.onChannel (fun c p => p.updateChannel { c with events := m c.events }) = .ok x := by
  have htracks : s.poller.Tracks { s.conn.channel with events := m s.conn.channel.events } := h
  obtain ⟨q, hq, -⟩ := htracks.updateChannel
  exact ⟨_, bind_eq_ok.mpr ⟨_, hq, rfl⟩⟩

/-- `handleClose` completes on a tracked channel. -/
theorem handleClose_completes (h : s.poller.Tracks s.conn.channel) : ∃ x, s.handleClose = .ok x := by
  obtain ⟨x, hx⟩ := onChannel_completes (s := s.setState .kDisconnected) h fun _ => kNoneEvent
  exact ⟨_, bind_eq_ok.mpr ⟨x, hx, rfl⟩⟩

/-- `connectEstablished` completes on a tracked channel. -/
theorem connectEstablished_completes (h : s.poller.Tracks s.conn.channel) :
    ∃ x, s.connectEstablished = .ok x := by
  obtain ⟨x, hx⟩ := onChannel_completes (s := s.setState .kConnected) h fun e => e ||| kReadEvent
  exact ⟨_, bind_eq_ok.mpr ⟨x, hx, rfl⟩⟩

/-- `handleRead` completes on a tracked channel when `inputBuffer` can take what was read. -/
theorem handleRead_completes (h : s.poller.Tracks s.conn.channel) (hinv : s.conn.inputBuffer.Inv)
    {r : ReadResult} (hfits : r.fits s.conn.inputBuffer.readOffer = true)
    (hhold : s.conn.inputBuffer.HoldsRead r) : ∃ x, s.handleRead r = .ok x := by
  obtain ⟨⟨input, n, errno⟩, hread⟩ := hinv.readFd_isOk 0 hfits hhold
  have hclose : ∃ x, Io.handleClose { s with conn := { s.conn with inputBuffer := input } } = .ok x :=
    handleClose_completes h
  obtain ⟨x, hx⟩ := hclose
  unfold handleRead
  rw [hread, ok_bind]
  dsimp only
  split
  · exact ⟨_, rfl⟩
  · split
    · exact ⟨x, hx⟩
    · exact ⟨_, rfl⟩

/-- The first half of a dispatch completes under the same conditions. -/
theorem handleEventRead_completes (h : s.poller.Tracks s.conn.channel) (hinv : s.conn.inputBuffer.Inv)
    {r : ReadResult} (hfits : r.fits s.conn.inputBuffer.readOffer = true)
    (hhold : s.conn.inputBuffer.HoldsRead r) (revents : Mask) :
    ∃ x, s.handleEventRead revents r = .ok x := by
  unfold handleEventRead
  split
  · exact ⟨_, rfl⟩
  · split
    · exact handleClose_completes h
    · split
      · exact handleRead_completes h hinv hfits hhold
      · exact ⟨_, rfl⟩

/-- `handleWrite` on an empty buffer completes on a tracked channel. -/
theorem drained_completes (h : s.poller.Tracks s.conn.channel) : ∃ x, s.drained = .ok x := by
  obtain ⟨x, hx⟩ := onChannel_completes h fun e => e &&& ~~~kReadEvent
  have hx' : s.onChannel Channel.disableReading = .ok x := hx
  unfold drained
  rw [hx', ok_bind]
  dsimp only
  split
  · split <;> exact ⟨_, rfl⟩
  · split <;> exact ⟨_, rfl⟩

/-- The second half of a dispatch completes on a tracked channel. -/
theorem handleEventWrite_completes (h : s.poller.Tracks s.conn.channel) (revents : Mask)
    (w : WriteResult) : ∃ x, s.handleEventWrite revents w = .ok x := by
  have hconsume (n : ℕ) (taken : List UInt8) : ∃ x, s.consume n taken = .ok x := by
    unfold consume
    dsimp only
    split
    · exact drained_completes h
    · exact ⟨_, rfl⟩
  unfold handleEventWrite
  split
  · exact ⟨_, rfl⟩
  · split
    · unfold handleWrite
      split
      · dsimp only
        split
        · exact hconsume _ _
        · exact ⟨_, rfl⟩
      · exact ⟨_, rfl⟩
    · exact ⟨_, rfl⟩

end Io

end CcMuduo
