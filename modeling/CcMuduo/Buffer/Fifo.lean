import CcMuduo.Buffer
import CcMuduo.Foundation.Run

/-!
# The buffer as a queue of bytes

The operations of `Buffer` beside the same operations on a list of bytes: `append` adds at the back,
`retrieve` drops from the front, `retrieveAllAsString` returns everything and empties the queue.

A session makes calls on a buffer and on the reference queue together. An exception leaves both as
they were. As long as the sums of sizes stay in the range of `size_t`, the session never leaves the
representation invariant, the content is the queue, the strings returned are those of the queue, and
only a vector that cannot grow throws. Storage is taken to be granted up to the largest vector: that it may
be refused before is left out.
-/

namespace CcMuduo

open Foundation

/-- A call on a buffer. -/
inductive BufferCall where
  | append (data : List UInt8)
  | ensureWriteableBytes (len : ℕ)
  | retrieve (len : ℕ)
  | retrieveAll
  | retrieveAllAsString
  deriving DecidableEq, Repr

namespace BufferCall

/-- The call on a buffer: the buffer it leaves, and the string it returns when it returns one. -/
def apply (b : Buffer) : BufferCall → Except Fault (Buffer × Option (List UInt8))
  | .append data => do
    let b' ← b.append data
    return (b', none)
  | .ensureWriteableBytes len => do
    let b' ← b.ensureWriteableBytes len
    return (b', none)
  | .retrieve len => .ok (b.retrieve len, none)
  | .retrieveAll => .ok (b.retrieveAll, none)
  | .retrieveAllAsString => do
    let (b', result) ← b.retrieveAllAsString
    return (b', some result)

/-- The call on a queue of bytes. -/
def onQueue (queue : List UInt8) : BufferCall → List UInt8 × Option (List UInt8)
  | .append data => (queue ++ data, none)
  | .ensureWriteableBytes _ => (queue, none)
  | .retrieve len => (queue.drop (min len queue.length), none)
  | .retrieveAll => ([], none)
  | .retrieveAllAsString => ([], some queue)

/-- How many writable bytes the call asks for. -/
def room : BufferCall → ℕ
  | .append data => data.length
  | .ensureWriteableBytes len => len
  | .retrieve _ | .retrieveAll | .retrieveAllAsString => 0

/-- The sums that the call makes with its size stay in the range of `size_t`. -/
def InRange (b : Buffer) (call : BufferCall) : Prop :=
  call.room + kCheapPrepend < 2 ^ 64 ∧ b.writerIndex + call.room < 2 ^ 64

instance (b : Buffer) (call : BufferCall) : Decidable (call.InRange b) :=
  inferInstanceAs (Decidable (_ ∧ _))

/-- What a call in range can do: what it does to the queue, or throw because the vector would exceed
its largest size. -/
theorem apply_spec {b : Buffer} {call : BufferCall} (h : b.Inv) (hrange : call.InRange b) :
    (∃ b', call.apply b = .ok (b', (call.onQueue b.content).2) ∧ b'.Inv ∧
      b'.content = (call.onQueue b.content).1) ∨
      call.apply b = .error .lengthError ∧ maxSize < b.writerIndex + call.room := by
  obtain ⟨-, hend⟩ := hrange
  cases call with
  | append data =>
    change b.writerIndex + data.length < 2 ^ 64 at hend
    by_cases hhold : b.CanHold data.length
    · obtain ⟨b', hok, hinv, hcontent⟩ := h.append_ok hend hhold
      exact .inl ⟨b', by simp [apply, hok, onQueue], hinv, hcontent⟩
    · exact .inr ⟨by simp [apply, h.append_error hend hhold], not_le.mp (not_or.mp hhold).2⟩
  | ensureWriteableBytes len =>
    change b.writerIndex + len < 2 ^ 64 at hend
    by_cases hhold : b.CanHold len
    · obtain ⟨b', hok, hinv, hcontent, -⟩ := h.ensureWriteableBytes_ok hend hhold
      exact .inl ⟨b', by simp [apply, hok, onQueue], hinv, hcontent⟩
    · exact .inr ⟨by simp [apply, h.ensureWriteableBytes_error hend hhold],
        not_le.mp (not_or.mp hhold).2⟩
  | retrieve len =>
    refine .inl ⟨b.retrieve len, rfl, h.retrieve len, ?_⟩
    rw [h.content_retrieve, onQueue]
    rcases Nat.le_total len b.content.length with hle | hle
    · rw [Nat.min_eq_left hle]
    · rw [Nat.min_eq_right hle, List.drop_eq_nil_of_le hle, List.drop_length]
  | retrieveAll => exact .inl ⟨b.retrieveAll, rfl, h.retrieveAll, segment_self _ _⟩
  | retrieveAllAsString =>
    refine .inl ⟨b.retrieveAll, ?_, h.retrieveAll, segment_self _ _⟩
    simp [apply, h.retrieveAllAsString, onQueue]

end BufferCall

/-- A buffer with its reference queue. `answers` pairs the string each call returned with the one the
queue gives, and `thrown` are the faults of the calls that did not return. -/
structure BufferSession where
  buffer : Buffer
  queue : List UInt8
  answers : List (Option (List UInt8) × Option (List UInt8))
  thrown : List Fault
  deriving DecidableEq

namespace BufferSession

/-- A session on a new buffer. -/
def new (b : Buffer) : BufferSession := ⟨b, [], [], []⟩

/-- One call, on the buffer and on the queue. -/
def step (s : BufferSession) (call : BufferCall) : Option BufferSession :=
  match call.apply s.buffer with
  | .ok (b', returned) =>
    some ⟨b', (call.onQueue s.queue).1, s.answers ++ [(returned, (call.onQueue s.queue).2)], s.thrown⟩
  | .error fault => some { s with thrown := s.thrown ++ [fault] }

/-- The sums that the next call makes with its size stay in the range of `size_t`. -/
def InRange (s : BufferSession) (call : BufferCall) : Prop := call.InRange s.buffer

instance (s : BufferSession) (call : BufferCall) : Decidable (s.InRange call) :=
  inferInstanceAs (Decidable (call.InRange s.buffer))

/-- The buffer is the queue: its representation is valid, its content and every string it returned
are those of the queue, the only fault so far is a vector that cannot grow, and it comes only from a
call that needs more than the largest vector. -/
structure Refines (s : BufferSession) : Prop where
  inv : s.buffer.Inv
  content : s.buffer.content = s.queue
  answers : ∀ a ∈ s.answers, a.1 = a.2
  thrown : ∀ fault ∈ s.thrown, fault = .lengthError
  accepts : ∀ call, s.InRange call → s.buffer.writerIndex + call.room ≤ maxSize →
    ∃ result, call.apply s.buffer = .ok result

/-- A buffer that is the queue accepts every call that its vector has room for. -/
theorem refines_of {s : BufferSession} (hinv : s.buffer.Inv) (hcontent : s.buffer.content = s.queue)
    (hanswers : ∀ a ∈ s.answers, a.1 = a.2) (hthrown : ∀ fault ∈ s.thrown, fault = .lengthError) :
    s.Refines := by
  refine ⟨hinv, hcontent, hanswers, hthrown, fun call hrange hfits => ?_⟩
  rcases BufferCall.apply_spec hinv hrange with ⟨b', hok, -⟩ | ⟨-, hbig⟩
  · exact ⟨_, hok⟩
  · omega

/-- A call in range keeps the buffer and the queue together. -/
theorem Refines.step {s s' : BufferSession} {call : BufferCall} (h : s.Refines)
    (hrange : s.InRange call) (hstep : s.step call = some s') : s'.Refines := by
  unfold BufferSession.step at hstep
  rcases BufferCall.apply_spec h.inv hrange with ⟨b', hok, hinv, hcontent⟩ | ⟨herr, -⟩
  · rw [hok, ← h.content] at hstep
    obtain rfl := Option.some.inj hstep
    refine refines_of hinv hcontent ?_ h.thrown
    intro a ha
    rcases List.mem_append.mp ha with hold | hnew
    · exact h.answers a hold
    · rw [List.mem_singleton.mp hnew]
  · rw [herr] at hstep
    obtain rfl := Option.some.inj hstep
    refine refines_of h.inv h.content h.answers ?_
    intro fault hfault
    rcases List.mem_append.mp hfault with hold | hnew
    · exact h.thrown fault hold
    · exact List.mem_singleton.mp hnew

/-- The constructor leaves an empty buffer with a valid representation. -/
theorem refines_new {initialSize : ℕ} {b : Buffer} (hsum : kCheapPrepend + initialSize < 2 ^ 64)
    (hb : Buffer.ofSize initialSize = .ok b) : (new b).Refines := by
  obtain ⟨hinv, hempty⟩ := Buffer.ofSize_inv hsum hb
  exact refines_of hinv hempty (by simp [new]) (by simp [new])

end BufferSession

/-- Whatever the initial size and whatever is called, as long as the sums of sizes stay in the range
of `size_t` the buffer is a queue of bytes after every call. -/
theorem buffer_refines_fifo (initialSize : ℕ) (b : Buffer) (calls : List BufferCall)
    (hsum : kCheapPrepend + initialSize < 2 ^ 64) (hb : Buffer.ofSize initialSize = .ok b)
    (hrange : Along BufferSession.step BufferSession.InRange (.new b) calls) :
    Everywhere BufferSession.step BufferSession.Refines (.new b) calls :=
  everywhere_of_along (fun _ h => h) (fun _ _ _ h hc hstep => h.step hc hstep)
    (BufferSession.refines_new hsum hb) hrange

/-- A buffer of two bytes that slides once, grows once and is emptied. -/
theorem buffer_refines_fifo_small :
    Everywhere BufferSession.step BufferSession.Refines (.new ⟨List.replicate 10 0, 8, 8⟩)
      [.append [1, 2], .retrieve 1, .append [3], .append [4, 5], .retrieveAllAsString] :=
  buffer_refines_fifo 2 _ _ (by decide) rfl (by decide)

end CcMuduo
