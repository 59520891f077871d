import CcMuduo.TcpConnection.Callbacks
import CcMuduo.TcpConnection.Lifetime

/-!
# The fault of a direct write

When the direct `::write` of `sendInLoop` fails, `errno` should decide between closing the connection, if
the peer is gone, and keeping the message. Between the write and the tests of `errno` stand a logging call,
which may leave any value there, and a call of `snprintf` that takes the message text for its buffer and
`errno` for the size.
-/

namespace CcMuduo

open Foundation

/-- What a formatting call writes into: an array of so many bytes, or a string literal. -/
inductive FormatTarget where
  | array (capacity : ℕ)
  | literal
  deriving DecidableEq, Repr

/-- A call of `snprintf`: its buffer and the size it is given. -/
structure FormatCall where
  target : FormatTarget
  size : ℕ
  deriving DecidableEq, Repr

/-- The call writes only into a buffer that is writable and large enough. With size zero it writes
nothing. -/
def FormatCall.Safe (call : FormatCall) : Prop :=
  match call.target with
  | .array capacity => call.size ≤ capacity
  | .literal => call.size = 0

/-- The size with which a call formats into a literal. -/
def FormatCall.literalSize (call : FormatCall) : Option ℕ :=
  match call.target with
  | .array _ => none
  | .literal => some call.size

/-- The formatting calls of `LOG_INFO`: the message, and in `Logger::log` the time, by
`Timestamp::toString`. -/
def logInfo : List FormatCall := [⟨.array 1024, 1024⟩, ⟨.array 128, 128⟩]

/-- The formatting calls of a `sendInLoop` whose direct `::write` fails. -/
def faultFormats (msg : Message) (errno : Errno) (log : ErrnoTrail) : List FormatCall :=
  let errno₁ := log.afterLog errno
  logInfo ++
    (if errno₁ ≠ EWOULDBLOCK then [⟨.literal, errno₁⟩] else logInfo) ++
    -- `handleClose` and `updateChannel` log, and behind `append` only `updateChannel`
    (if (WriteResult.failed errno).closes log then logInfo ++ logInfo
    else if msg.bytes ≠ [] then logInfo else [])

/-- The sizes with which the effects format into a literal. -/
def literalSizes (effects : List Effect) : List ℕ :=
  effects.filterMap fun
    | .formatLiteral size => some size
    | _ => none

/-- The peer is gone for good. -/
def peerGone (errno : Errno) : Prop := errno = EPIPE ∨ errno = ECONNRESET

instance (errno : Errno) : Decidable (peerGone errno) := inferInstanceAs (Decidable (_ ∨ _))

@[simp] theorem literalSizes_append (l₁ l₂ : List Effect) :
    literalSizes (l₁ ++ l₂) = literalSizes l₁ ++ literalSizes l₂ :=
  List.filterMap_append

namespace Io

/-- The right outcome: `handleClose` has run once and nothing is buffered when the peer is gone, and
otherwise the connection is as open as before, with the message buffered and the write interest on. -/
def ClassifiedAs (s s' : Io) (msg : Message) (errno : Errno) : Prop :=
  if peerGone errno then
    closes s'.effects = closes s.effects + 1 ∧ s'.conn.outputBuffer = s.conn.outputBuffer
  else
    closes s'.effects = closes s.effects ∧ s'.conn.state = s.conn.state ∧
      s'.conn.outputBuffer.readableBytes = s.conn.outputBuffer.readableBytes + msg.bytes.length ∧
      s'.conn.channel.isWriting = true

/-- `sendInLoop` comes to the right outcome after the error, and every formatting call on the way is
safe. -/
def Classifies (s : Io) (msg : Message) (errno : Errno) (log : ErrnoTrail) : Prop :=
  ∃ s', s.sendInLoop msg (.failed errno) log = .ok s' ∧ s.ClassifiedAs s' msg errno ∧
    ∀ call ∈ faultFormats msg errno log, call.Safe

/-- There is a message to keep, and `outputBuffer` can hold it. -/
def CanKeep (s : Io) (msg : Message) : Prop :=
  msg.bytes ≠ [] ∧ s.conn.outputBuffer.CanHold msg.bytes.length

/-- The logging call leaves `EWOULDBLOCK` and the message is to be kept; or it leaves zero, the
formatting call leaves an error of the same class as the write, and the message can be kept if it is to
be. -/
def FaultHarmless (s : Io) (msg : Message) (errno : Errno) (log : ErrnoTrail) : Prop :=
  log.afterLog errno = EWOULDBLOCK ∧ ¬ peerGone errno ∧ s.CanKeep msg ∨
    log.afterLog errno = 0 ∧ (peerGone (log.afterFormat 0) ↔ peerGone errno) ∧
      (¬ peerGone errno → s.CanKeep msg)

variable {s s' : Io} {msg : Message} {errno : Errno} {log : ErrnoTrail}

/-- The formatting calls on the way are safe exactly if the one into the literal is not made or writes
nothing. -/
theorem faultFormats_safe_iff : (∀ call ∈ faultFormats msg errno log, call.Safe) ↔
    log.afterLog errno = EWOULDBLOCK ∨ log.afterLog errno = 0 := by
  have hlog : ∀ call ∈ logInfo, call.Safe := by
    simp [logInfo, FormatCall.Safe]
  have hend : ∀ call ∈ (if (WriteResult.failed errno).closes log then logInfo ++ logInfo
      else if msg.bytes ≠ [] then logInfo else []), call.Safe := by
    intro call hcall
    split at hcall
    · exact (List.mem_append.mp hcall).elim (hlog call) (hlog call)
    · split at hcall
      · exact hlog call hcall
      · contradiction
  simp only [faultFormats, List.forall_mem_append]
  rw [and_iff_left hend, and_iff_right hlog]
  by_cases hblock : log.afterLog errno = EWOULDBLOCK
  · simpa [hblock] using hlog
  · simp [hblock, FormatCall.Safe]

/-- A report to the poller completes on a tracked channel. -/
theorem onChannel_ok (htracks : s.poller.Tracks s.conn.channel) (m : Mask → Mask) :
    ∃ s', s.onChannel (fun c p => p.updateChannel { c with events := m c.events }) = .ok s' := by
  have htracks' : s.poller.Tracks { s.conn.channel with events := m s.conn.channel.events } := htracks
  obtain ⟨q, hq, -⟩ := htracks'.updateChannel
  exact ⟨_, bind_eq_ok.mpr ⟨_, hq, rfl⟩⟩

/-- `handleClose` completes on a tracked channel. -/
theorem handleClose_ok (htracks : s.poller.Tracks s.conn.channel) : ∃ s', s.handleClose = .ok s' := by
  obtain ⟨s₁, h₁⟩ := onChannel_ok (s := s.setState .kDisconnected) htracks fun _ => kNoneEvent
  exact ⟨_, bind_eq_ok.mpr ⟨s₁, h₁, rfl⟩⟩

/-- Keeping bytes for later completes on a tracked channel exactly if `outputBuffer` can hold them. -/
theorem queueRest_ok_iff {nwroter : ℤ} {remaining : ℕ} (hinv : s.conn.outputBuffer.Inv)
    (htracks : s.poller.Tracks s.conn.channel) (hle : remaining ≤ msg.bytes.length) :
    (∃ s', s.queueRest msg nwroter remaining = .ok s') ↔
      s.conn.outputBuffer.CanHold (msg.window nwroter remaining).length := by
  have hsum := hinv.sum_lt (msg.window_length_le nwroter hle)
  constructor
  · rintro ⟨s', h⟩
    by_contra hhold
    rw [queueRest, hinv.append_error hsum hhold] at h
    contradiction
  · intro hhold
    obtain ⟨out, hout, -⟩ := hinv.append_ok hsum hhold
    have hend (x : Io) (hx : x.poller.Tracks x.conn.channel) : ∃ s',
        (if !x.conn.channel.isWriting then x.onChannel Channel.enableWriting else pure x) = .ok s' := by
      split
      · exact onChannel_ok hx fun events => events ||| kWriteEvent
      · exact ⟨x, rfl⟩
    rw [queueRest, hout]
    refine hend _ ?_
    split <;> exact htracks

/-- What a failed direct write leaves for the rest of `sendInLoop`. -/
theorem directWrite_failed (s : Io) (msg : Message) (errno : Errno) (log : ErrnoTrail) :
    s.directWrite msg log (.failed errno) = ({ s with
      effects := s.effects ++
        if log.afterLog errno ≠ EWOULDBLOCK then [.formatLiteral (log.afterLog errno)] else [] },
      -1, msg.bytes.length, (WriteResult.failed errno).closes log) := by
  by_cases hblock : log.afterLog errno = EWOULDBLOCK <;>
    simp [directWrite, hblock, WriteResult.closes, emit]

/-- Keeping bytes for later formats nothing. -/
theorem queueRest_literals {nwroter : ℤ} {remaining : ℕ}
    (h : s.queueRest msg nwroter remaining = .ok s') :
    literalSizes s'.effects = literalSizes s.effects := by
  obtain ⟨out, p, c, -, rfl⟩ := queueRest_eq h
  have hmark (old new : ℕ) : literalSizes (s.conn.highWater old new) = [] := by
    unfold TcpConnection.highWater
    split <;> rfl
  rw [literalSizes_append, hmark, List.append_nil]

/-- The calls that format into a literal are the ones that `sendInLoop` has on record. -/
theorem faultFormats_recorded (hstate : s.conn.state ≠ .kDisconnected)
    (hdirect : s.writesDirectly = true) (h : s.sendInLoop msg (.failed errno) log = .ok s') :
    literalSizes s'.effects = literalSizes s.effects ++
      (faultFormats msg errno log).filterMap FormatCall.literalSize := by
  have hlog : logInfo.filterMap FormatCall.literalSize = [] := rfl
  have hformats : (faultFormats msg errno log).filterMap FormatCall.literalSize =
      literalSizes (if log.afterLog errno ≠ EWOULDBLOCK then [.formatLiteral (log.afterLog errno)]
        else []) := by
    simp only [faultFormats, List.filterMap_append, hlog, List.nil_append, apply_ite
      (List.filterMap FormatCall.literalSize), List.filterMap_nil, ite_self, List.append_nil]
    split <;> rfl
  simp only [sendInLoop, if_neg hstate, firstWrite, hdirect, if_true, directWrite_failed] at h
  rw [hformats, ← literalSizes_append]
  split at h
  · obtain ⟨p, index, -, rfl⟩ := handleClose_closed h
    simp [literalSizes]
  · split at h
    · exact queueRest_literals h
    · exact Except.ok.inj h ▸ rfl

/-- A `sendInLoop` whose direct write fails completes on a tracked channel if it closes the connection,
has nothing to keep, or can keep the message. -/
theorem sendInLoop_failed_ok_iff (h : s.Sound) (htracks : s.poller.Tracks s.conn.channel)
    (hstate : s.conn.state ≠ .kDisconnected) (hdirect : s.writesDirectly = true) :
    (∃ s', s.sendInLoop msg (.failed errno) log = .ok s') ↔
      ((WriteResult.failed errno).closes log = false → msg.bytes ≠ [] →
        s.conn.outputBuffer.CanHold msg.bytes.length) := by
  obtain ⟨new, hwrite⟩ : ∃ new, s.directWrite msg log (.failed errno) =
      ({ s with effects := s.effects ++ new }, -1, msg.bytes.length,
        (WriteResult.failed errno).closes log) := ⟨_, s.directWrite_failed msg errno log⟩
  simp only [sendInLoop, if_neg hstate, firstWrite, hdirect, if_true, hwrite]
  cases hcloses : (WriteResult.failed errno).closes log with
  | true =>
    refine iff_of_true ?_ fun hnot => absurd hnot (by simp)
    simp only [if_true]
    exact handleClose_ok htracks
  | false =>
    simp only [Bool.false_eq_true, if_false, forall_const, List.length_pos_iff]
    by_cases hmsg : msg.bytes = []
    · simp [hmsg]
    · have hkept : (msg.window (-1) msg.bytes.length).length = msg.bytes.length := msg.shifted_length
      simp only [ne_eq, hmsg, not_false_eq_true, if_true, forall_const]
      refine (queueRest_ok_iff (s := { s with effects := s.effects ++ new }) h.output htracks
        le_rfl).trans ?_
      rw [hkept]

/-- What a completed `sendInLoop` with a failed direct write has done: it closed the connection, or it
kept the message. -/
theorem sendInLoop_failed_cases (h : s.Sound) (hstate : s.conn.state ≠ .kDisconnected)
    (hdirect : s.writesDirectly = true) (hok : s.sendInLoop msg (.failed errno) log = .ok s') :
    ((WriteResult.failed errno).closes log = true ∧ closes s'.effects = closes s.effects + 1 ∧
      s'.conn.outputBuffer = s.conn.outputBuffer) ∨
    ((WriteResult.failed errno).closes log = false ∧ closes s'.effects = closes s.effects ∧
      s'.conn.state = s.conn.state ∧
      s'.conn.outputBuffer.readableBytes = s.conn.outputBuffer.readableBytes + msg.bytes.length ∧
      (s'.conn.channel.isWriting = true ↔ msg.bytes ≠ [])) := by
  rcases sendInLoop_cases h.output rfl hok with
    ⟨hdown, -⟩ | ⟨-, -, hcloses, new, hnew, p, index, -, rfl⟩ | ⟨-, -, hcloses, hsent⟩ | ⟨-, hnot, -⟩
  · exact absurd hdown hstate
  · refine .inl ⟨hcloses, ?_, rfl⟩
    rw [closes_append, closes_append, (Unnoticed.of_isSend hnew).closes]
    rfl
  · refine .inr ⟨hcloses, ?_, hsent.state, ?_, ?_⟩
    · obtain ⟨new, heffects, hnew⟩ := hsent.sends
      rw [heffects, closes_append, (Unnoticed.of_isSend hnew).closes, Nat.add_zero]
    · rw [hsent.inv.readableBytes_eq, hsent.content, List.length_append, ← h.output.readableBytes_eq]
      exact congrArg _ msg.shifted_length
    · have hoff : s.conn.channel.isWriting = false := by
        simp only [writesDirectly, Bool.and_eq_true, Bool.not_eq_true'] at hdirect
        exact hdirect.1
      have hkept : msg.shifted = [] ↔ msg.bytes = [] := by
        rw [← List.length_eq_zero_iff, msg.shifted_length, List.length_eq_zero_iff]
      rw [hsent.writing, hoff, Bool.false_or]
      simpa [WriteResult.kept] using not_congr hkept
  · rw [hdirect] at hnot
    contradiction

/-- The outcome is the right one exactly if the tests of `errno` find the class of the error, and the
message can be kept if it is to be. -/
theorem outcome_iff (h : s.Sound) (htracks : s.poller.Tracks s.conn.channel)
    (hstate : s.conn.state ≠ .kDisconnected) (hdirect : s.writesDirectly = true) :
    (∃ s', s.sendInLoop msg (.failed errno) log = .ok s' ∧ s.ClassifiedAs s' msg errno) ↔
      ((WriteResult.failed errno).closes log = true ↔ peerGone errno) ∧
        (¬ peerGone errno → s.CanKeep msg) := by
  have hcompletes : (∃ s', s.sendInLoop msg (.failed errno) log = .ok s') ↔
      ((WriteResult.failed errno).closes log = false → msg.bytes ≠ [] →
        s.conn.outputBuffer.CanHold msg.bytes.length) :=
    sendInLoop_failed_ok_iff h htracks hstate hdirect
  unfold ClassifiedAs
  constructor
  · rintro ⟨s', hok, hclass⟩
    rcases sendInLoop_failed_cases h hstate hdirect hok with
      ⟨hcloses, hclosed, -⟩ | ⟨hcloses, hopen, -, -, hwriting⟩
    · have hgone : peerGone errno := by
        by_contra hgone
        rw [if_neg hgone] at hclass
        omega
      exact ⟨iff_of_true hcloses hgone, fun hnot => absurd hgone hnot⟩
    · have hgone : ¬ peerGone errno := fun hgone => by
        rw [if_pos hgone] at hclass
        omega
      rw [if_neg hgone] at hclass
      have hmsg := hwriting.mp hclass.2.2.2
      exact ⟨iff_of_false (by simp [hcloses]) hgone,
        fun _ => ⟨hmsg, hcompletes.mp ⟨s', hok⟩ hcloses hmsg⟩⟩
  · rintro ⟨htests, hkeep⟩
    have hstays : (WriteResult.failed errno).closes log = false → ¬ peerGone errno := fun hcloses => by
      rw [← htests, hcloses]
      simp
    obtain ⟨s', hok⟩ := hcompletes.mpr fun hcloses _ => (hkeep (hstays hcloses)).2
    refine ⟨s', hok, ?_⟩
    rcases sendInLoop_failed_cases h hstate hdirect hok with
      ⟨hcloses, hclosed, hsame⟩ | ⟨hcloses, hopen, hsame, hlen, hwriting⟩
    · rw [if_pos (htests.mp hcloses)]
      exact ⟨hclosed, hsame⟩
    · rw [if_neg (hstays hcloses)]
      exact ⟨hopen, hsame, hlen, hwriting.mpr (hkeep (hstays hcloses)).1⟩

/-- A direct `::write` that fails is classified, with safe formatting, exactly if the calls behind it
leave `errno` harmless. -/
theorem writeFault_classified_iff (s : Io) (msg : Message) (errno : Errno) (log : ErrnoTrail)
    (h : s.Sound) (htracks : s.poller.Tracks s.conn.channel) (hstate : s.conn.state ≠ .kDisconnected)
    (hdirect : s.writesDirectly = true) :
    s.Classifies msg errno log ↔ s.FaultHarmless msg errno log := by
  have hsplit : s.Classifies msg errno log ↔
      (∃ s', s.sendInLoop msg (.failed errno) log = .ok s' ∧ s.ClassifiedAs s' msg errno) ∧
        ∀ call ∈ faultFormats msg errno log, call.Safe := by
    simp only [Classifies, ← and_assoc, exists_and_right]
  rw [hsplit, outcome_iff h htracks hstate hdirect, faultFormats_safe_iff, FaultHarmless]
  -- which tests are made depends on what the logging call has left
  by_cases hblock : log.afterLog errno = EWOULDBLOCK
  · have hcloses : (WriteResult.failed errno).closes log = false := by
      simp [WriteResult.closes, hblock]
    constructor
    · rintro ⟨⟨htests, hkeep⟩, -⟩
      have hgone : ¬ peerGone errno := by
        rw [← htests, hcloses]
        simp
      exact .inl ⟨hblock, hgone, hkeep hgone⟩
    · rintro (⟨-, hgone, hkeep⟩ | ⟨hzero, -⟩)
      · exact ⟨⟨iff_of_false (by simp [hcloses]) hgone, fun _ => hkeep⟩, .inl hblock⟩
      · rw [hblock] at hzero
        exact absurd hzero (by decide)
  · by_cases hzero : log.afterLog errno = 0
    · have hcloses : (WriteResult.failed errno).closes log = true ↔ peerGone (log.afterFormat 0) := by
        simp [WriteResult.closes, hzero, peerGone, EWOULDBLOCK]
      rw [hcloses]
      constructor
      · rintro ⟨houtcome, -⟩
        exact .inr ⟨hzero, houtcome⟩
      · rintro (⟨hlog, -⟩ | ⟨-, houtcome⟩)
        · exact absurd hlog hblock
        · exact ⟨houtcome, .inr hzero⟩
    · refine iff_of_false ?_ ?_
      · rintro ⟨-, hlog | hlog⟩
        · exact hblock hlog
        · exact hzero hlog
      · rintro (⟨hlog, -⟩ | ⟨hlog, -⟩)
        · exact hblock hlog
        · exact hzero hlog

end Io

/-- The poller knows the channel of an established connection. -/
theorem Opening.established_tracks (o : Opening) :
    o.established.poller.Tracks o.established.conn.channel := by
  simp [Opening.established, EpollPoller.Tracks]

/-- A write that would block, on a new connection, with logging that leaves `errno` alone. -/
theorem writeFault_classified_wouldBlock :
    Opening.fresh.established.Classifies ⟨0, [97], by decide⟩ EWOULDBLOCK ⟨id, id⟩ ↔
      Opening.fresh.established.FaultHarmless ⟨0, [97], by decide⟩ EWOULDBLOCK ⟨id, id⟩ :=
  Io.writeFault_classified_iff _ _ _ _ ⟨Buffer.initial_inv, Buffer.initial_inv⟩
    (Opening.established_tracks _) (by decide) rfl

/-- With logging that leaves `errno` alone, an interrupted write is formatted into a literal; with
logging that ends in `EWOULDBLOCK`, the message to a peer that is gone is kept. -/
theorem writeFault_unclassified :
    ¬ Opening.fresh.established.Classifies ⟨0, [97], by decide⟩ EINTR ⟨id, id⟩ ∧
      ¬ Opening.fresh.established.Classifies ⟨0, [97], by decide⟩ EPIPE
        ⟨fun _ => EWOULDBLOCK, id⟩ := by
  constructor
  · rintro ⟨-, -, -, hsafe⟩
    exact absurd (Io.faultFormats_safe_iff.mp hsafe) (by decide)
  · rintro ⟨s', hok, hclass, -⟩
    rw [Io.ClassifiedAs, if_pos (by decide)] at hclass
    rcases Io.sendInLoop_failed_cases ⟨Buffer.initial_inv, Buffer.initial_inv⟩ (by decide) rfl hok with
      ⟨hcloses, -⟩ | ⟨-, hopen, -⟩
    · exact absurd hcloses (by decide)
    · omega

end CcMuduo
