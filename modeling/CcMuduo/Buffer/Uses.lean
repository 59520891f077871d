import CcMuduo.Buffer.ScatterRead
import CcMuduo.Foundation.Run

/-!
# The uses of a buffer

Runs of the uses that a program makes of a `Buffer`, through the exceptions they throw. The
representation stays valid as long as no `ensureWriteableBytes` asks for so much that the sum with
`writerIndex` wraps.

Two members promise more than they keep. `retrieveAsString` copies as many bytes as it is asked for
and forgets as many as there are, so it conserves the content only up to `readableBytes`. And
`ensureWriteableBytes` leaves too little room, or cuts the vector off, once its sums wrap.
-/

namespace CcMuduo

open Foundation

/-- A use of a buffer. A length is a `size_t`, and `append` takes an object in memory. -/
inductive BufferUse where
  | append (data : { l : List UInt8 // l.length ≤ maxSize })
  | readFd (saveErrno : Errno) (r : ReadResult)
  | retrieve (len : UInt64)
  | retrieveAll
  | retrieveAsString (len : UInt64)
  | retrieveAllAsString
  | ensureWriteableBytes (len : UInt64)

namespace Buffer

/-- The buffer that a member leaves: its result, or what it has made of the buffer when it throws.
A use of memory outside the vector leaves none. -/
def leaves (thrown : Buffer) : Except Fault Buffer → Option Buffer
  | .ok b => some b
  | .error .lengthError => some thrown
  | .error _ => none

/-- The buffer when `readFd` throws: its writable part is full. -/
def readThrown (b : Buffer) : ReadResult → Buffer
  | .received bytes => b.filled bytes
  | .failed _ => b

/-- One use of a buffer; `::readv` stores no more than it is offered. -/
def use (b : Buffer) : BufferUse → Option Buffer
  | .append data => b.leaves (b.append data)
  | .readFd saveErrno r =>
    if r.fits b.readOffer then
      (b.readThrown r).leaves (Prod.fst <$> b.readFd saveErrno r)
    else none
  | .retrieve len => some (b.retrieve len.toNat)
  | .retrieveAll => some b.retrieveAll
  | .retrieveAsString len => b.leaves (Prod.fst <$> b.retrieveAsString len.toNat)
  | .retrieveAllAsString => b.leaves (Prod.fst <$> b.retrieveAllAsString)
  | .ensureWriteableBytes len => b.leaves (b.ensureWriteableBytes len.toNat)

/-- What `retrieveAsString` returns is what it takes away from the content. -/
def Conserves (b : Buffer) (len : ℕ) : Prop :=
  match b.retrieveAsString len with
  | .ok (b', result) => result ++ b'.content = b.content
  | .error _ => False

instance (b : Buffer) (len : ℕ) : Decidable (b.Conserves len) :=
  match h : b.retrieveAsString len with
  | .ok (b', result) =>
    decidable_of_iff (result ++ b'.content = b.content) (by simp only [Conserves, h])
  | .error _ => isFalse (by simp only [Conserves, h, not_false_iff])

/-- `ensureWriteableBytes` leaves room for `len` bytes and the same content, or throws without having
touched the buffer. -/
def KeepsRoom (b : Buffer) (len : ℕ) : Prop :=
  match b.ensureWriteableBytes len with
  | .ok b' => len ≤ b'.writableBytes ∧ b'.content = b.content ∧ b'.Inv
  | .error fault => fault = .lengthError

instance (b : Buffer) (len : ℕ) : Decidable (b.KeepsRoom len) :=
  match h : b.ensureWriteableBytes len with
  | .ok b' =>
    decidable_of_iff (len ≤ b'.writableBytes ∧ b'.content = b.content ∧ b'.Inv)
      (by simp only [KeepsRoom, h])
  | .error fault => decidable_of_iff (fault = .lengthError) (by simp only [KeepsRoom, h])

end Buffer

/-- The use is not a call of `ensureWriteableBytes`. -/
def BufferUse.moves : BufferUse → Bool
  | .ensureWriteableBytes _ => false
  | _ => true

/-- The sum that `ensureWriteableBytes` makes with `writerIndex` is in range. -/
def BufferUse.InRange (b : Buffer) : BufferUse → Prop
  | .ensureWriteableBytes len => b.writerIndex + len.toNat < 2 ^ 64
  | _ => True

instance (b : Buffer) (call : BufferUse) : Decidable (call.InRange b) :=
  match call with
  | .ensureWriteableBytes len => inferInstanceAs (Decidable (b.writerIndex + len.toNat < 2 ^ 64))
  | .append _ | .readFd _ _ | .retrieve _ | .retrieveAll | .retrieveAsString _ | .retrieveAllAsString =>
    .isTrue trivial

namespace Buffer

variable {b b' : Buffer}

/-- A member that either completes with a valid buffer or throws from one leaves a valid buffer. -/
theorem Inv.of_leaves {thrown : Buffer} {result : Except Fault Buffer} (hthrown : thrown.Inv)
    (hok : ∀ b₁, result = .ok b₁ → b₁.Inv) (h : thrown.leaves result = some b') : b'.Inv := by
  unfold leaves at h
  split at h
  · exact Option.some.inj h ▸ hok _ rfl
  · exact Option.some.inj h ▸ hthrown
  · contradiction

/-- `retrieveAsString` forgets as `retrieve` does. -/
theorem retrieveAsString_fst {len : ℕ} {b₁ : Buffer}
    (h : Prod.fst <$> b.retrieveAsString len = .ok b₁) : b₁ = b.retrieve len := by
  unfold retrieveAsString copyFrom at h
  split at h
  · split at h
    · exact (Except.ok.inj h).symm
    · contradiction
  · contradiction

/-- What `readFd` leaves is valid, also when it throws with the writable part full. -/
theorem Inv.of_received (h : b.Inv) {saveErrno : Errno} {bytes : List UInt8}
    (hoffer : bytes.length ≤ b.readOffer)
    (hleaves : (b.filled bytes).leaves (Prod.fst <$> b.readFd saveErrno (.received bytes)) = some b') :
    b'.Inv := by
  by_cases hhold : b.CanHold bytes.length
  · obtain ⟨b₁, hok, hinv, -⟩ := h.readFd_ok saveErrno hoffer hhold
    rw [hok] at hleaves
    exact Option.some.inj hleaves ▸ hinv
  · have hspill : b.writableBytes < bytes.length := not_le.mp fun hle => hhold (h.canHold_of_le hle)
    rw [h.readFd_error saveErrno hoffer hhold] at hleaves
    exact Option.some.inj hleaves ▸ (h.filled hspill).1

/-- A use in range keeps the representation valid. -/
theorem Inv.use (h : b.Inv) {call : BufferUse} (hrange : call.InRange b)
    (hstep : b.use call = some b') : b'.Inv := by
  cases call with
  | append data => exact h.of_leaves (fun b₁ hok => (h.of_append data.2 hok).1) hstep
  | readFd saveErrno r =>
    simp only [Buffer.use] at hstep
    split at hstep
    · rename_i hfits
      cases r with
      | failed errno => exact h.of_leaves (fun b₁ hok => Except.ok.inj hok ▸ h) hstep
      | received bytes => exact h.of_received (by simpa [ReadResult.fits] using hfits) hstep
    · contradiction
  | retrieve len => exact Option.some.inj hstep ▸ h.retrieve len.toNat
  | retrieveAll => exact Option.some.inj hstep ▸ h.retrieveAll
  | retrieveAsString len =>
    exact h.of_leaves (fun b₁ hok => retrieveAsString_fst hok ▸ h.retrieve len.toNat) hstep
  | retrieveAllAsString =>
    exact h.of_leaves (fun b₁ hok => retrieveAsString_fst hok ▸ h.retrieve _) hstep
  | ensureWriteableBytes len =>
    refine h.of_leaves (fun b₁ hok => ?_) hstep
    by_cases hhold : b.CanHold len.toNat
    · obtain ⟨b₂, hok₂, hinv, -⟩ := h.ensureWriteableBytes_ok hrange hhold
      rw [hok, Except.ok.injEq] at hok₂
      exact hok₂ ▸ hinv
    · rw [h.ensureWriteableBytes_error hrange hhold] at hok
      contradiction

/-- Uses in range lead from a valid representation to a valid one. -/
theorem Inv.of_uses (h : b.Inv) {uses : List BufferUse}
    (hrange : Along Buffer.use BufferUse.InRange b uses) (hrun : run Buffer.use b uses = some b') :
    b'.Inv :=
  invariant_of_run (fun _ _ _ hinv hcall hstep => hinv.use hcall hstep) h hrange hrun

/-- `retrieveAsString` returns as many bytes as it is asked for. -/
theorem Inv.retrieveAsString_length (h : b.Inv) {len : ℕ} {result : List UInt8}
    (hok : b.retrieveAsString len = .ok (b', result)) : result.length = len := by
  have hreader := h.ordered.trans h.bounded
  have hsize := h.sized
  unfold retrieveAsString at hok
  split at hok
  · rename_i hlen
    obtain ⟨copied, hcopy, hret⟩ := bind_eq_ok.mp hok
    obtain rfl := (Prod.mk.inj (Except.ok.inj hret)).2
    have hend : sizeAdd b.readerIndex len = b.readerIndex + len :=
      wordAdd_eq (by simp only [maxSize] at hlen hsize; omega)
    rw [hend, copyFrom] at hcopy
    split at hcopy
    · rename_i hinside
      rw [← Except.ok.inj hcopy, segment_length hinside.2]
      omega
    · contradiction
  · contradiction

/-- `retrieveAsString` conserves the content exactly up to `readableBytes`: behind that it returns
bytes that are not content, reads behind the vector, or throws. -/
theorem Inv.conserves_iff (h : b.Inv) {len : ℕ} : b.Conserves len ↔ len ≤ b.readableBytes := by
  unfold Conserves
  constructor
  · intro hconserves
    split at hconserves
    · rename_i b' result hok
      have hlen := congrArg List.length hconserves
      rw [List.length_append, h.retrieveAsString_length hok, ← h.readableBytes_eq] at hlen
      omega
    · exact hconserves.elim
  · intro hlen
    rw [h.retrieveAsString_of_le hlen]
    change b.content.take len ++ (b.retrieve len).content = b.content
    rw [h.content_retrieve, List.take_append_drop]

/-- A request whose sum with `writerIndex` wraps is not met: the vector that `makeSpace` slides in is
too small, or the one it resizes to ends in front of `writerIndex`. -/
theorem Inv.not_keepsRoom (h : b.Inv) {len : ℕ} (hlen : len < 2 ^ 64)
    (hwrap : 2 ^ 64 ≤ b.writerIndex + len) : ¬ b.KeepsRoom len := by
  have hwrite := h.writableBytes_eq
  have hp := h.prepend
  have hrw := h.ordered
  have hws := h.bounded
  have hsize := h.sized
  simp only [maxSize] at hsize
  have hfull : b.writableBytes < len := by omega
  unfold KeepsRoom
  rw [ensureWriteableBytes, ensureWriteableBytesWith, if_pos hfull]
  rcases Nat.lt_or_ge (len + kCheapPrepend) (2 ^ 64) with hask | hask
  · have hask' : sizeAdd len kCheapPrepend = len + kCheapPrepend := wordAdd_eq hask
    have hroom : b.writableBytes + b.prependableBytes < sizeAdd len kCheapPrepend := by
      simp only [prependableBytes]
      omega
    have hcut : sizeAdd b.writerIndex len < b.writerIndex := by
      rw [show sizeAdd b.writerIndex len = b.writerIndex + len - 2 ^ 64 from
        wordAdd_wrap (by omega) hlen hwrap]
      omega
    rw [h.makeSpaceWith_grow hroom, resizeWith, if_pos (by simp only [maxSize]; omega),
      if_pos (.inr rfl)]
    rintro ⟨-, -, hinv⟩
    have hend := hinv.bounded
    simp only [List.length_append, List.length_take, List.length_replicate] at hend
    omega
  · have hask' : sizeAdd len kCheapPrepend = len + kCheapPrepend - 2 ^ 64 :=
      wordAdd_wrap hlen (by omega) hask
    have hroom : sizeAdd len kCheapPrepend ≤ b.writableBytes + b.prependableBytes := by
      simp only [prependableBytes]
      omega
    rw [h.makeSpaceWith_slide hroom]
    rintro ⟨hpromised, -, hinv⟩
    rw [hinv.writableBytes_eq, h.slide.1] at hpromised
    omega

/-- `ensureWriteableBytes` keeps its promise exactly while the sum with `writerIndex` is in range. -/
theorem Inv.keepsRoom_iff (h : b.Inv) {len : ℕ} (hlen : len < 2 ^ 64) :
    b.KeepsRoom len ↔ b.writerIndex + len < 2 ^ 64 := by
  refine ⟨fun hkeeps => ?_, fun hend => ?_⟩
  · by_contra hwrap
    exact h.not_keepsRoom hlen (not_lt.mp hwrap) hkeeps
  · unfold KeepsRoom
    by_cases hhold : b.CanHold len
    · obtain ⟨b', hok, hinv, hcontent, hroom⟩ := h.ensureWriteableBytes_ok hend hhold
      rw [hok]
      refine ⟨?_, hcontent, hinv⟩
      rw [hinv.writableBytes_eq]
      omega
    · rw [h.ensureWriteableBytes_error hend hhold]

end Buffer

section

variable (initialSize : ℕ) (b₀ b : Buffer) (uses : List BufferUse)
  (hsum : kCheapPrepend + initialSize < 2 ^ 64) (hnew : Buffer.ofSize initialSize = .ok b₀)
  (hrun : run Buffer.use b₀ uses = some b)

include hsum hnew hrun

/-- Whatever was appended, read and retrieved before, `retrieveAsString` conserves the content exactly
when it is not asked for more than `readableBytes`. -/
theorem retrieveAsString_conserves_iff (hmoves : ∀ call ∈ uses, call.moves = true) (len : UInt64) :
    b.Conserves len.toNat ↔ len.toNat ≤ b.readableBytes := by
  have hrange : Along Buffer.use BufferUse.InRange b₀ uses := by
    refine along_of_forall (fun call hcall s => ?_) b₀
    have hmove := hmoves call hcall
    cases call <;> trivial
  exact ((Buffer.ofSize_inv hsum hnew).1.of_uses hrange hrun).conserves_iff

/-- In every state that uses in range reach, `ensureWriteableBytes` keeps its promise exactly when the
sum of its size with `writerIndex` is in range. -/
theorem ensureWriteableBytes_keeps_iff (hrange : Along Buffer.use BufferUse.InRange b₀ uses)
    (len : UInt64) : b.KeepsRoom len.toNat ↔ b.writerIndex + len.toNat < 2 ^ 64 :=
  ((Buffer.ofSize_inv hsum hnew).1.of_uses hrange hrun).keepsRoom_iff len.toNat_lt

end

/-- A buffer of two bytes, one of them retrieved, that is asked for five. -/
theorem retrieveAsString_conserves_small :
    Buffer.Conserves ⟨[0, 0, 0, 0, 0, 0, 0, 0, 1, 2], 9, 10⟩ (5 : UInt64).toNat ↔
      (5 : UInt64).toNat ≤ Buffer.readableBytes ⟨[0, 0, 0, 0, 0, 0, 0, 0, 1, 2], 9, 10⟩ :=
  retrieveAsString_conserves_iff 2 ⟨List.replicate 10 0, 8, 8⟩ _
    [.append ⟨[1, 2], by decide⟩, .retrieve 1] (by decide) rfl (by decide +kernel) (by decide) 5

/-- Asked for two bytes when one is readable, `retrieveAsString` returns one that was retrieved
before. -/
theorem retrieveAsString_stale :
    run Buffer.use ⟨List.replicate 10 0, 8, 8⟩
        [.append ⟨[1, 2], by decide⟩, .retrieveAll, .append ⟨[4], by decide⟩] =
        some ⟨[0, 0, 0, 0, 0, 0, 0, 0, 4, 2], 8, 9⟩ ∧
      Prod.snd <$> Buffer.retrieveAsString ⟨[0, 0, 0, 0, 0, 0, 0, 0, 4, 2], 8, 9⟩ 2 = .ok [4, 2] ∧
      ¬ Buffer.Conserves ⟨[0, 0, 0, 0, 0, 0, 0, 0, 4, 2], 8, 9⟩ 2 := by
  decide +kernel

/-- A buffer of two bytes, one of them retrieved, that is asked for room for five. -/
theorem ensureWriteableBytes_keeps_small :
    Buffer.KeepsRoom ⟨[0, 0, 0, 0, 0, 0, 0, 0, 1, 2], 9, 10⟩ (5 : UInt64).toNat ↔
      10 + (5 : UInt64).toNat < 2 ^ 64 :=
  ensureWriteableBytes_keeps_iff 2 ⟨List.replicate 10 0, 8, 8⟩ _
    [.append ⟨[1, 2], by decide⟩, .retrieve 1] (by decide) rfl (by decide +kernel) (by decide +kernel) 5

/-- Asked for all of `size_t`, a buffer stays as it is; asked for all but the bytes in front of
`writerIndex`, it loses its vector. -/
theorem ensureWriteableBytes_wraps :
    Buffer.ensureWriteableBytes ⟨List.replicate 10 0, 8, 8⟩ (2 ^ 64 - 1) =
        .ok ⟨List.replicate 10 0, 8, 8⟩ ∧
      ¬ Buffer.KeepsRoom ⟨List.replicate 10 0, 8, 8⟩ (2 ^ 64 - 1) ∧
      Buffer.ensureWriteableBytes ⟨[0, 0, 0, 0, 0, 0, 0, 0, 4, 2], 8, 9⟩ (2 ^ 64 - 9) =
        .ok ⟨[], 8, 9⟩ ∧
      ¬ Buffer.KeepsRoom ⟨[0, 0, 0, 0, 0, 0, 0, 0, 4, 2], 8, 9⟩ (2 ^ 64 - 9) := by
  decide +kernel

end CcMuduo
