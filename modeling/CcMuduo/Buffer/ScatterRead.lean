import CcMuduo.Buffer

/-!
# The scatter read

`readFd` lets `::readv` fill the writable part of the vector and put what does not fit there into
`extrabuf` on the stack, from where `append` takes it. The split is invisible: whatever the kernel
stores goes behind the content in order, and an error leaves the buffer as it was.

Nothing in `readFd` asks whether the vector can hold the rest. When it has to grow and gets no storage,
`append` throws out of it.
-/

namespace CcMuduo

/-- The kernel stores no more bytes than it is offered. -/
def ReadResult.fits (len : ℕ) : ReadResult → Bool
  | .received bytes => decide (bytes.length ≤ len)
  | .failed _ => true

namespace Buffer

/-- `readFd` returns the count of `::readv` with exactly the bytes read behind the content, or a
negative count with the buffer as it was and the error in `*saveErrno`. -/
def ReadsLosslessly (b : Buffer) (alloc : Allocator) (saveErrno : Errno) (r : ReadResult) : Prop :=
  ∃ b' n errno, b.readFdWith alloc saveErrno r = .ok (b', n, errno) ∧
    match r with
    | .received bytes => n = bytes.length ∧ b'.Inv ∧ b'.content = b.content ++ bytes
    | .failed e => n < 0 ∧ b' = b ∧ errno = e

/-- The vector can take what `::readv` stored. -/
def HoldsRead (b : Buffer) : ReadResult → Prop
  | .received bytes => b.CanHold bytes.length
  | .failed _ => True

/-- `append` gets the storage it asks for: the vector need not grow for what `::readv` stored, or it may
grow to the size. -/
def GrantsRead (b : Buffer) (alloc : Allocator) : ReadResult → Prop
  | .received bytes => b.CanHoldWith alloc bytes.length
  | .failed _ => True

/-- Whatever the allocator, `readFd` is a lossless scatter read when the storage that `append` asks for is
granted. -/
theorem readFd_lossless (alloc : Allocator) (b : Buffer) (saveErrno : Errno) (r : ReadResult) (h : b.Inv)
    (hfits : r.fits b.readOffer = true) (hgrants : b.GrantsRead alloc r) :
    b.ReadsLosslessly alloc saveErrno r := by
  cases r with
  | failed errno => exact ⟨b, -1, errno, rfl, by decide, rfl, rfl⟩
  | received bytes =>
    have hoffer : bytes.length ≤ b.readOffer := by simpa [ReadResult.fits] using hfits
    obtain ⟨b', hok, hinv, hcontent⟩ := h.readFdWith_ok saveErrno hoffer hgrants
    exact ⟨b', bytes.length, saveErrno, hok, rfl, hinv, hcontent⟩

/-- A read of three bytes into a writable part of two, for which the vector grows to eleven. -/
theorem readFd_lossless_spilled :
    ReadsLosslessly ⟨List.replicate 10 0, 8, 8⟩ (fun n => n == 11) 0 (.received [1, 2, 3]) :=
  readFd_lossless _ _ 0 _ ⟨by decide, by decide, by decide, by decide⟩ (by decide)
    (.inr ⟨by decide, by decide⟩)

/-- With all the storage it asks for, `readFd` returns when the vector can take what `::readv` stored. -/
theorem Inv.readFd_isOk {b : Buffer} (h : b.Inv) (saveErrno : Errno) {r : ReadResult}
    (hfits : r.fits b.readOffer = true) (hhold : b.HoldsRead r) :
    ∃ result, b.readFd saveErrno r = .ok result := by
  cases r with
  | failed errno => exact ⟨_, rfl⟩
  | received bytes =>
    obtain ⟨b', hok, -⟩ := h.readFd_ok saveErrno (by simpa [ReadResult.fits] using hfits) hhold
    exact ⟨_, hok⟩

end Buffer

end CcMuduo
