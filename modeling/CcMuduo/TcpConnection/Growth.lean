import CcMuduo.TcpConnection.Callbacks
import CcMuduo.TcpConnection.Handlers

/-!
# The record of a connection only grows

Whatever a function of a connection does, what is on record of its effects stays there. What an event adds
is one close at most in its first half, and one queued callback at most in its second.
-/

namespace CcMuduo

open Foundation

namespace Io

variable {s s' : Io}

/-- A completed call adds to the record. -/
theorem callStep_grows (hsound : s.Sound) {call : ConnCall} (h : callStep s call = some s') :
    s.effects <+: s'.effects :=
  (effects_grow hsound.output hsound.input h).imp fun _ => Eq.symm

/-- The beginning of an event adds one close at most to the record, and queues no callback. -/
theorem handleEventRead_new (hsound : s.Sound) {revents : Mask} {r : ReadResult}
    (hlegal : (ConnCall.handleRead r).legal s = true) (h : s.handleEventRead revents r = .ok s') :
    ∃ new, s'.effects = s.effects ++ new ∧ closes new ≤ 1 ∧ queuedCallbacks new = [] := by
  have hnothing (heq : s' = s) :
      ∃ new, s'.effects = s.effects ++ new ∧ closes new ≤ 1 ∧ queuedCallbacks new = [] :=
    ⟨[], by rw [heq, List.append_nil], Nat.zero_le 1, rfl⟩
  have hclosed {y : Io} (hy : y.effects = s.effects) (hclose : ClosedAfter y s' []) :
      ∃ new, s'.effects = s.effects ++ new ∧ closes new ≤ 1 ∧ queuedCallbacks new = [] := by
    obtain ⟨p, index, -, rfl⟩ := hclose
    exact ⟨[.connectionCallback false, .closeCallback], by rw [← hy, List.append_nil], by decide, rfl⟩
  unfold handleEventRead at h
  split at h
  · exact hnothing (Except.ok.inj h).symm
  · split at h
    · exact hclosed rfl (handleClose_closed h)
    · split at h
      · rcases handleRead_cases hsound.input h with
          ⟨-, -, rfl⟩ | ⟨-, input, -, hclose⟩ | ⟨bytes, rfl, -, hread⟩
        · exact hnothing rfl
        · refine hclosed ?_ hclose
          rfl
        · obtain ⟨input, -, -, rfl⟩ := hread (by simpa [ConnCall.legal] using hlegal)
          exact ⟨[.messageCallback input.content bytes.length], rfl, by simp [closes], rfl⟩
      · exact hnothing (Except.ok.inj h).symm

/-- The end of an event adds no close to the record, and queues one callback at most. -/
theorem handleEventWrite_new (hsound : s.Sound) {revents : Mask} {w : WriteResult}
    (hfits : w.fits s.conn.outputBuffer.readableBytes = true)
    (h : s.handleEventWrite revents w = .ok s') :
    ∃ new, s'.effects = s.effects ++ new ∧ closes new = 0 ∧ (queuedCallbacks new).length ≤ 1 := by
  have hnothing (heq : s' = s) :
      ∃ new, s'.effects = s.effects ++ new ∧ closes new = 0 ∧ (queuedCallbacks new).length ≤ 1 :=
    ⟨[], by rw [heq, List.append_nil], rfl, Nat.zero_le 1⟩
  unfold handleEventWrite at h
  split at h
  · exact hnothing (Except.ok.inj h).symm
  · split at h
    · have hqueues := (handleWrite_queues hsound.output hfits h).queued
      have hsends : ∃ new, s'.effects = s.effects ++ new ∧ ∀ e ∈ new, e.isSend = true := by
        rcases handleWrite_cases hsound.output hfits h with
          ⟨-, hdrain⟩ | ⟨-, out, -, -, -, new, hsend, -, rfl⟩
        · exact hdrain.sends
        · exact ⟨new, rfl, hsend⟩
      obtain ⟨new, hnew, hsend⟩ := hsends
      rw [hnew, queuedCallbacks_append] at hqueues
      refine ⟨new, hnew, (Unnoticed.of_isSend hsend).closes, ?_⟩
      rw [List.append_cancel_left hqueues]
      split
      · unfold TcpConnection.writeComplete
        split <;> simp
      · simp
    · exact hnothing (Except.ok.inj h).symm

/-- `connectEstablished` adds the up notification. -/
theorem connectEstablished_effects (h : s.connectEstablished = .ok s') :
    s'.effects = s.effects ++ [.connectionCallback true] := by
  obtain ⟨s₁, h₁, heq⟩ := bind_eq_ok.mp h
  obtain ⟨p, index, -, rfl⟩ := onChannel_update (m := fun e => e ||| kReadEvent) h₁
  obtain rfl := Except.ok.inj heq
  rfl

/-- The first half of `connectDestroyed` adds the down notification at most. -/
theorem notifyDestroyed_effects (hstate : s.conn.state = .kConnected) (h : s.notifyDestroyed = .ok s') :
    s'.effects = s.effects ++ [.connectionCallback false] := by
  rw [notifyDestroyed, if_pos hstate] at h
  obtain ⟨s₁, h₁, heq⟩ := bind_eq_ok.mp h
  obtain ⟨p, index, -, rfl⟩ := onChannel_update (m := fun _ => kNoneEvent) h₁
  obtain rfl := Except.ok.inj heq
  rfl

/-- `shutdownInLoop` adds the end of the write side at most. -/
theorem shutdownInLoop_grows (s : Io) : s.effects <+: s.shutdownInLoop.effects := by
  unfold shutdownInLoop
  split
  · exact List.prefix_append _ _
  · exact List.prefix_rfl

end Io

end CcMuduo
