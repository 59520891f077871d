import CcMuduo.Basic
import CcMuduo.Foundation.Segment

/-!
# The byte buffer

`Buffer` keeps the unread bytes of a connection between `readerIndex` and `writerIndex` of a
growing vector. Indices are `size_t`, so sums and differences wrap, and a copy outside the vector
or a size beyond `max_size()` is a fault, not a silent truncation.

A vector that grows asks for storage, and `vector::resize` throws `bad_alloc` when it gets none. The
members that can grow the vector take an allocator in `makeSpaceWith`, `appendWith` and `readFdWith`. The
plain `append` and `readFd`, which the rest of the development uses, leave that failure out: the vector is
granted every size up to `max_size()`.

`Buffer.Inv` is the representation invariant. Under it each operation acts on `content`, the
unread bytes, as the same operation acts on a queue of bytes.
-/

namespace CcMuduo

open Foundation

/-- `kCheapPrepend`, the room kept in front of the readable bytes. -/
def kCheapPrepend : ℕ := 8

/-- `kInitialSize`, the writable size of a buffer built without an argument. -/
def kInitialSize : ℕ := 1024

/-- `sizeof extrabuf` in `readFd`. -/
def extrabufSize : ℕ := 65536

/-- The vector and the two indices into it. -/
structure Buffer where
  buffer : List UInt8
  readerIndex : ℕ
  writerIndex : ℕ
  deriving DecidableEq, Repr

/-- `std::copy` into the vector from position `pos` on. -/
def copyTo (storage : List UInt8) (pos : ℕ) (data : List UInt8) : Except Fault (List UInt8) :=
  if pos + data.length ≤ storage.length then .ok (overwrite storage pos data)
  else .error .outOfBounds

/-- The bytes a copy reads between two positions of the vector. -/
def copyFrom (storage : List UInt8) (i j : ℕ) : Except Fault (List UInt8) :=
  if i ≤ j ∧ j ≤ storage.length then .ok (segment storage i j) else .error .outOfBounds

/-- Does a vector get the storage it asks for when it grows to the size? -/
abbrev Allocator := ℕ → Bool

/-- An allocator that never fails. -/
def Allocator.unlimited : Allocator := fun _ => true

/-- `std::vector<char>::resize`. -/
def resizeWith (alloc : Allocator) (storage : List UInt8) (n : ℕ) : Except Fault (List UInt8) :=
  if n ≤ maxSize then
    if n ≤ storage.length ∨ alloc n then
      .ok (storage.take n ++ List.replicate (n - storage.length) 0)
    else .error .badAlloc
  else .error .lengthError

/-- `resize` with all the storage it asks for. -/
def resize (storage : List UInt8) (n : ℕ) : Except Fault (List UInt8) := resizeWith .unlimited storage n

/-- With all the storage it asks for, `resize` fails beyond `max_size()` only. -/
theorem resize_eq (storage : List UInt8) (n : ℕ) :
    resize storage n =
      if n ≤ maxSize then .ok (storage.take n ++ List.replicate (n - storage.length) 0)
      else .error .lengthError := by
  simp [resize, resizeWith, Allocator.unlimited]

/-- A vector that is granted its storage grows by zeros. -/
theorem resizeWith_grow {alloc : Allocator} {storage : List UInt8} {n : ℕ} (hsize : n ≤ maxSize)
    (hle : storage.length ≤ n) (hgrants : alloc n = true) :
    resizeWith alloc storage n = .ok (storage ++ List.replicate (n - storage.length) 0) := by
  rw [resizeWith, if_pos hsize, if_pos (.inr hgrants), List.take_of_length_le hle]

namespace Buffer

/-- `Buffer(initialSize)`. -/
def ofSize (initialSize : ℕ) : Except Fault Buffer := do
  let storage ← resize [] (sizeAdd kCheapPrepend initialSize)
  return ⟨storage, kCheapPrepend, kCheapPrepend⟩

/-- The buffer built without an argument. -/
def initial : Buffer := ⟨List.replicate (kCheapPrepend + kInitialSize) 0, kCheapPrepend, kCheapPrepend⟩

variable (b : Buffer)

/-- How many bytes are unread. -/
def readableBytes : ℕ := sizeSub b.writerIndex b.readerIndex

/-- The room behind `writerIndex`. -/
def writableBytes : ℕ := sizeSub b.buffer.length b.writerIndex

/-- The room in front of `readerIndex`. -/
def prependableBytes : ℕ := b.readerIndex

/-- The readable bytes, from `peek()` on. -/
def content : List UInt8 := segment b.buffer b.readerIndex b.writerIndex

/-- Forget every readable byte. -/
def retrieveAll : Buffer := { b with readerIndex := kCheapPrepend, writerIndex := kCheapPrepend }

/-- Forget the first `len` readable bytes, or all when there are not more. -/
def retrieve (len : ℕ) : Buffer :=
  if len < b.readableBytes then { b with readerIndex := sizeAdd b.readerIndex len }
  else b.retrieveAll

/-- `retrieveAsString`: the string takes `len` bytes from `peek()` on, whatever is readable. -/
def retrieveAsString (len : ℕ) : Except Fault (Buffer × List UInt8) :=
  if len ≤ maxSize then do
    let result ← copyFrom b.buffer b.readerIndex (sizeAdd b.readerIndex len)
    return (b.retrieve len, result)
  else .error .lengthError

/-- `retrieveAllAsString`. -/
def retrieveAllAsString : Except Fault (Buffer × List UInt8) := b.retrieveAsString b.readableBytes

/-- Grow the vector, or slide the readable bytes down to `kCheapPrepend`. -/
def makeSpaceWith (alloc : Allocator) (len : ℕ) : Except Fault Buffer :=
  if sizeAdd b.writableBytes b.prependableBytes < sizeAdd len kCheapPrepend then do
    let storage ← resizeWith alloc b.buffer (sizeAdd b.writerIndex len)
    return { b with buffer := storage }
  else do
    let readable := b.readableBytes
    let bytes ← copyFrom b.buffer b.readerIndex b.writerIndex
    let storage ← copyTo b.buffer kCheapPrepend bytes
    return ⟨storage, kCheapPrepend, sizeAdd kCheapPrepend readable⟩

/-- Make room for `len` bytes behind `writerIndex`. -/
def ensureWriteableBytesWith (alloc : Allocator) (len : ℕ) : Except Fault Buffer :=
  if b.writableBytes < len then b.makeSpaceWith alloc len else .ok b

/-- Store `data` behind the readable bytes. -/
def appendWith (alloc : Allocator) (data : List UInt8) : Except Fault Buffer := do
  let b' ← b.ensureWriteableBytesWith alloc data.length
  let storage ← copyTo b'.buffer b'.writerIndex data
  return { b' with buffer := storage, writerIndex := sizeAdd b'.writerIndex data.length }

/-- `ensureWriteableBytes` with all the storage it asks for. -/
def ensureWriteableBytes (len : ℕ) : Except Fault Buffer := b.ensureWriteableBytesWith .unlimited len

/-- `append` with all the storage it asks for. -/
def append (data : List UInt8) : Except Fault Buffer := b.appendWith .unlimited data

/-- How many bytes `readFd` offers to `::readv`: `extrabuf` is the second vector only when the
writable part is smaller than it. -/
def readOffer : ℕ :=
  if b.writableBytes < extrabufSize then b.writableBytes + extrabufSize else b.writableBytes

/-- `readFd` on the answer of `::readv`: the buffer, the returned count and `*saveErrno`. The
kernel has filled the writable part first and `extrabuf` with the rest. -/
def readFdWith (alloc : Allocator) (saveErrno : Errno) : ReadResult → Except Fault (Buffer × ℤ × Errno)
  | .failed errno => .ok (b, -1, errno)
  | .received bytes => do
    let n := bytes.length
    if n ≤ b.writableBytes then
      let storage ← copyTo b.buffer b.writerIndex bytes
      return ({ b with buffer := storage, writerIndex := sizeAdd b.writerIndex n }, n, saveErrno)
    else
      let storage ← copyTo b.buffer b.writerIndex (bytes.take b.writableBytes)
      let full : Buffer := { b with buffer := storage, writerIndex := storage.length }
      let b' ← full.appendWith alloc (bytes.drop b.writableBytes)
      return (b', n, saveErrno)

/-- `readFd` with all the storage it asks for. -/
def readFd (saveErrno : Errno) (r : ReadResult) : Except Fault (Buffer × ℤ × Errno) :=
  b.readFdWith .unlimited saveErrno r

/-- `writeFd` on the answer of `::write`: the returned count, `*saveErrno`, and the bytes that the
kernel took of the readable ones it was offered. -/
def writeFd (saveErrno : Errno) : WriteResult → ℤ × Errno × List UInt8
  | .accepted n => (n, saveErrno, b.content.take n)
  | .failed errno => (-1, errno, [])

/-- The representation invariant. -/
structure Inv : Prop where
  prepend : kCheapPrepend ≤ b.readerIndex
  ordered : b.readerIndex ≤ b.writerIndex
  bounded : b.writerIndex ≤ b.buffer.length
  sized : b.buffer.length ≤ maxSize

instance (b : Buffer) : Decidable b.Inv :=
  decidable_of_iff (kCheapPrepend ≤ b.readerIndex ∧ b.readerIndex ≤ b.writerIndex ∧
      b.writerIndex ≤ b.buffer.length ∧ b.buffer.length ≤ maxSize)
    ⟨fun h => ⟨h.1, h.2.1, h.2.2.1, h.2.2.2⟩, fun h => ⟨h.1, h.2, h.3, h.4⟩⟩

/-- The vector takes `len` more bytes behind the content: there is room for them outside the content,
or a vector large enough is within the largest size. -/
def CanHold (len : ℕ) : Prop :=
  len + kCheapPrepend ≤ b.writableBytes + b.prependableBytes ∨ b.writerIndex + len ≤ maxSize

instance (len : ℕ) : Decidable (b.CanHold len) := inferInstanceAs (Decidable (_ ∨ _))

/-- The same of a vector whose storage comes from the allocator. -/
def CanHoldWith (alloc : Allocator) (len : ℕ) : Prop :=
  len + kCheapPrepend ≤ b.writableBytes + b.prependableBytes ∨
    b.writerIndex + len ≤ maxSize ∧ alloc (b.writerIndex + len) = true

instance (alloc : Allocator) (len : ℕ) : Decidable (b.CanHoldWith alloc len) :=
  inferInstanceAs (Decidable (_ ∨ _))

variable {b} {alloc : Allocator}

/-- With all the storage it asks for, the vector needs the size only. -/
theorem CanHold.unlimited {len : ℕ} (h : b.CanHold len) : b.CanHoldWith .unlimited len :=
  h.imp_right fun hsize => ⟨hsize, rfl⟩

/-- `readableBytes` counts the content. -/
theorem Inv.readableBytes_eq (h : b.Inv) : b.readableBytes = b.content.length := by
  obtain ⟨_, hrw, hws, hsize⟩ := h
  have hmax : b.buffer.length < 2 ^ 64 := by simp only [maxSize] at hsize; omega
  rw [readableBytes, content, segment_length hws, sizeSub, wordSub_eq hrw (by omega)]

/-- The content fits into the vector. -/
theorem Inv.readableBytes_le (h : b.Inv) : b.readableBytes ≤ maxSize := by
  rw [h.readableBytes_eq, content, segment_length h.bounded]
  exact (Nat.sub_le _ _).trans (h.bounded.trans h.sized)

/-- The three regions of the vector add up to its size. -/
theorem Inv.writableBytes_eq (h : b.Inv) : b.writableBytes = b.buffer.length - b.writerIndex := by
  obtain ⟨_, _, hws, hsize⟩ := h
  exact wordSub_eq hws (by simp only [maxSize] at hsize; omega)

/-- A buffer is readable exactly when it has content. -/
theorem Inv.readableBytes_eq_zero_iff (h : b.Inv) : b.readableBytes = 0 ↔ b.content = [] := by
  rw [h.readableBytes_eq, List.length_eq_zero_iff]

/-- The constructor's buffer satisfies the invariant. -/
theorem initial_inv : initial.Inv := by
  refine ⟨le_rfl, le_rfl, ?_, ?_⟩ <;>
    simp only [initial, List.length_replicate, kCheapPrepend, kInitialSize, maxSize] <;> omega

/-- A new buffer is empty. -/
@[simp] theorem initial_content : initial.content = [] := segment_self _ _

/-- Building a buffer without an argument is building it with `kInitialSize`. -/
theorem ofSize_kInitialSize : ofSize kInitialSize = .ok initial := rfl

/-- The constructor leaves an empty buffer with a valid representation, unless the size it asks for
wraps. -/
theorem ofSize_inv {initialSize : ℕ} (hsum : kCheapPrepend + initialSize < 2 ^ 64)
    (hb : ofSize initialSize = .ok b) : b.Inv ∧ b.content = [] := by
  obtain ⟨storage, hstorage, hret⟩ := bind_eq_ok.mp hb
  obtain rfl := Except.ok.inj hret
  rw [show sizeAdd kCheapPrepend initialSize = kCheapPrepend + initialSize from wordAdd_eq hsum,
    resize_eq] at hstorage
  split at hstorage
  · rename_i hfits
    obtain rfl := Except.ok.inj hstorage
    exact ⟨⟨le_rfl, le_rfl, by simp, by simpa using hfits⟩, segment_self _ _⟩
  · contradiction

/-- `retrieveAll` keeps the invariant: the vector never shrinks below `kCheapPrepend`. -/
theorem Inv.retrieveAll (h : b.Inv) : b.retrieveAll.Inv :=
  ⟨le_rfl, le_rfl, h.prepend.trans (h.ordered.trans h.bounded), h.sized⟩

/-- `retrieve` keeps the invariant. -/
theorem Inv.retrieve (h : b.Inv) (len : ℕ) : (b.retrieve len).Inv := by
  unfold Buffer.retrieve
  split
  · rename_i hlen
    have hread := h.readableBytes_eq
    rw [content, segment_length h.bounded] at hread
    obtain ⟨hp, hrw, hws, hsize⟩ := h
    have hadd : sizeAdd b.readerIndex len = b.readerIndex + len :=
      wordAdd_eq (by simp only [maxSize] at hsize; omega)
    exact ⟨by simp only [hadd]; omega, by simp only [hadd]; omega, hws, hsize⟩
  · exact h.retrieveAll

/-- `retrieve` drops from the front, and drops everything when `len` is too large. -/
theorem Inv.content_retrieve (h : b.Inv) (len : ℕ) :
    (b.retrieve len).content = b.content.drop len := by
  have hread := h.readableBytes_eq
  unfold Buffer.retrieve
  split
  · rename_i hlen
    rw [content, segment_length h.bounded] at hread
    obtain ⟨_, hrw, hws, hsize⟩ := h
    have hadd : sizeAdd b.readerIndex len = b.readerIndex + len :=
      wordAdd_eq (by simp only [maxSize] at hsize; omega)
    rw [content, hadd, content, drop_segment]
  · rename_i hlen
    rw [List.drop_eq_nil_of_le (by omega)]
    exact segment_self _ _

/-- Up to `readableBytes`, `retrieveAsString` returns what it forgets. -/
theorem Inv.retrieveAsString_of_le (h : b.Inv) {len : ℕ} (hlen : len ≤ b.readableBytes) :
    b.retrieveAsString len = .ok (b.retrieve len, b.content.take len) := by
  have hread := h.readableBytes_eq
  rw [content, segment_length h.bounded] at hread
  obtain ⟨_, hrw, hws, hsize⟩ := h
  have hend : sizeAdd b.readerIndex len = b.readerIndex + len :=
    wordAdd_eq (by simp only [maxSize] at hsize; omega)
  rw [retrieveAsString, if_pos (by omega), hend, copyFrom, if_pos (by omega), content,
    take_segment (by omega)]
  rfl

/-- `retrieveAllAsString` returns the content and leaves nothing. -/
theorem Inv.retrieveAllAsString (h : b.Inv) :
    b.retrieveAllAsString = .ok (b.retrieveAll, b.content) := by
  have hall : b.retrieve b.readableBytes = b.retrieveAll := if_neg (lt_irrefl _)
  rw [Buffer.retrieveAllAsString, h.retrieveAsString_of_le le_rfl, hall, h.readableBytes_eq,
    List.take_length]

/-- Growing the vector keeps the content. -/
theorem Inv.grow (h : b.Inv) {size : ℕ} (hsize : size ≤ maxSize) (hle : b.buffer.length ≤ size) :
    (⟨b.buffer ++ List.replicate (size - b.buffer.length) 0, b.readerIndex, b.writerIndex⟩ :
      Buffer).Inv ∧
      (⟨b.buffer ++ List.replicate (size - b.buffer.length) 0, b.readerIndex, b.writerIndex⟩ :
        Buffer).content = b.content := by
  have hlen : (b.buffer ++ List.replicate (size - b.buffer.length) 0).length = size := by
    rw [List.length_append, List.length_replicate]
    omega
  obtain ⟨hp, hrw, hws, -⟩ := h
  exact ⟨⟨hp, hrw, hlen.symm ▸ hws.trans hle, hlen.symm ▸ hsize⟩, segment_append_right hws⟩

/-- Sliding the readable bytes down to `kCheapPrepend` keeps the content. -/
theorem Inv.slide (h : b.Inv) :
    (overwrite b.buffer kCheapPrepend b.content).length = b.buffer.length ∧
      (⟨overwrite b.buffer kCheapPrepend b.content, kCheapPrepend,
        kCheapPrepend + b.readableBytes⟩ : Buffer).Inv ∧
      (⟨overwrite b.buffer kCheapPrepend b.content, kCheapPrepend,
        kCheapPrepend + b.readableBytes⟩ : Buffer).content = b.content := by
  have hread := h.readableBytes_eq
  have hcontent : b.content.length = b.writerIndex - b.readerIndex := segment_length h.bounded
  obtain ⟨hp, hrw, hws, hsize⟩ := h
  have hlen : (overwrite b.buffer kCheapPrepend b.content).length = b.buffer.length :=
    overwrite_length (by omega)
  refine ⟨hlen, ⟨le_rfl, Nat.le_add_right _ _, ?_, hlen.symm ▸ hsize⟩, ?_⟩
  · change kCheapPrepend + b.readableBytes ≤ (overwrite b.buffer kCheapPrepend b.content).length
    omega
  · have hback := segment_overwrite_self (hp.trans (hrw.trans hws)) b.content
    rw [← hread] at hback
    exact hback

/-- `makeSpace` adds up the room outside the content without wrapping. -/
theorem Inv.room_eq (h : b.Inv) :
    sizeAdd b.writableBytes b.prependableBytes = b.writableBytes + b.prependableBytes := by
  have hwrite := h.writableBytes_eq
  obtain ⟨_, hrw, hws, hsize⟩ := h
  simp only [maxSize] at hsize
  exact wordAdd_eq (by simp only [prependableBytes]; omega)

/-- With enough room outside the content, `makeSpace` slides the content down. -/
theorem Inv.makeSpaceWith_slide (h : b.Inv) {len : ℕ}
    (hroom : sizeAdd len kCheapPrepend ≤ b.writableBytes + b.prependableBytes) :
    b.makeSpaceWith alloc len = .ok ⟨overwrite b.buffer kCheapPrepend b.content, kCheapPrepend,
      kCheapPrepend + b.readableBytes⟩ := by
  have hread := h.readableBytes_eq
  have hcontent : b.content.length = b.writerIndex - b.readerIndex := segment_length h.bounded
  have hnot := hroom.not_gt
  rw [← h.room_eq] at hnot
  obtain ⟨hp, hrw, hws, hsize⟩ := h
  simp only [maxSize] at hsize
  have hend : sizeAdd kCheapPrepend b.readableBytes = kCheapPrepend + b.readableBytes :=
    wordAdd_eq (by omega)
  rw [makeSpaceWith, if_neg hnot, copyFrom, if_pos ⟨hrw, hws⟩, ← hend]
  simp only [ok_bind, copyTo]
  rw [if_pos (by rw [← content]; omega)]
  rfl

/-- Without enough room outside the content, `makeSpace` resizes the vector. -/
theorem Inv.makeSpaceWith_grow (h : b.Inv) {len : ℕ}
    (hroom : b.writableBytes + b.prependableBytes < sizeAdd len kCheapPrepend) :
    b.makeSpaceWith alloc len = (do
      let storage ← resizeWith alloc b.buffer (sizeAdd b.writerIndex len)
      return { b with buffer := storage }) := by
  rw [← h.room_eq] at hroom
  rw [makeSpaceWith, if_pos hroom]

/-- A buffer that can hold `len` bytes makes room for them, with the same content. -/
theorem Inv.ensureWriteableBytesWith_ok (h : b.Inv) {len : ℕ} (hend : b.writerIndex + len < 2 ^ 64)
    (hhold : b.CanHoldWith alloc len) :
    ∃ b', b.ensureWriteableBytesWith alloc len = .ok b' ∧ b'.Inv ∧ b'.content = b.content ∧
      b'.writerIndex + len ≤ b'.buffer.length := by
  have hwrite := h.writableBytes_eq
  have hread := h.readableBytes_eq
  have hcontent : b.content.length = b.writerIndex - b.readerIndex := segment_length h.bounded
  have hp := h.prepend
  have hrw := h.ordered
  have hws := h.bounded
  have hask : sizeAdd len kCheapPrepend = len + kCheapPrepend := wordAdd_eq (by omega)
  have hgrow : sizeAdd b.writerIndex len = b.writerIndex + len := wordAdd_eq hend
  unfold Buffer.ensureWriteableBytesWith
  split
  · by_cases hroom : len + kCheapPrepend ≤ b.writableBytes + b.prependableBytes
    · obtain ⟨hlen, hinv, hsame⟩ := h.slide
      refine ⟨_, h.makeSpaceWith_slide (hask ▸ hroom), hinv, hsame, ?_⟩
      simp only [prependableBytes] at hroom
      simp only [hlen]
      omega
    · obtain ⟨hfit, hgrants⟩ := hhold.resolve_left hroom
      obtain ⟨hinv, hsame⟩ := h.grow hfit (by omega)
      refine ⟨_, ?_, hinv, hsame, ?_⟩
      · rw [h.makeSpaceWith_grow (hask ▸ not_le.mp hroom), hgrow, resizeWith_grow hfit (by omega) hgrants]
        rfl
      · simp only [List.length_append, List.length_replicate]
        omega
  · exact ⟨b, rfl, h, rfl, by omega⟩

/-- So it does with all the storage it asks for. -/
theorem Inv.ensureWriteableBytes_ok (h : b.Inv) {len : ℕ} (hend : b.writerIndex + len < 2 ^ 64)
    (hhold : b.CanHold len) :
    ∃ b', b.ensureWriteableBytes len = .ok b' ∧ b'.Inv ∧ b'.content = b.content ∧
      b'.writerIndex + len ≤ b'.buffer.length :=
  h.ensureWriteableBytesWith_ok hend hhold.unlimited

/-- A buffer that cannot hold `len` bytes refuses them. -/
theorem Inv.ensureWriteableBytes_error (h : b.Inv) {len : ℕ} (hend : b.writerIndex + len < 2 ^ 64)
    (hhold : ¬ b.CanHold len) : b.ensureWriteableBytes len = .error .lengthError := by
  have hp := h.prepend
  have hrw := h.ordered
  have hask : sizeAdd len kCheapPrepend = len + kCheapPrepend := wordAdd_eq (by omega)
  have hgrow : sizeAdd b.writerIndex len = b.writerIndex + len := wordAdd_eq hend
  simp only [CanHold, not_or, not_le] at hhold
  obtain ⟨hroom, hbig⟩ := hhold
  have hfull : b.writableBytes < len := by
    simp only [prependableBytes] at hroom
    omega
  rw [Buffer.ensureWriteableBytes, ensureWriteableBytesWith, if_pos hfull,
    h.makeSpaceWith_grow (hask ▸ hroom), hgrow, resizeWith, if_neg hbig.not_ge]
  rfl

/-- Storing `data` behind the content, inside the vector, adds it to the content. -/
theorem Inv.store (h : b.Inv) {data : List UInt8}
    (hroom : b.writerIndex + data.length ≤ b.buffer.length) :
    (⟨overwrite b.buffer b.writerIndex data, b.readerIndex, b.writerIndex + data.length⟩ :
      Buffer).Inv ∧
      (⟨overwrite b.buffer b.writerIndex data, b.readerIndex, b.writerIndex + data.length⟩ :
        Buffer).content = b.content ++ data := by
  obtain ⟨hp, hrw, hws, hsize⟩ := h
  have hlen := overwrite_length hroom
  refine ⟨⟨hp, by simp only; omega, by simp only [hlen]; omega, by simp only [hlen]; omega⟩, ?_⟩
  rw [content, ← segment_append (j := b.writerIndex) hrw (Nat.le_add_right _ _),
    segment_overwrite_below le_rfl hws, segment_overwrite_self hws]
  rfl

/-- A buffer that can hold `data` stores it at the back. -/
theorem Inv.appendWith_ok (h : b.Inv) {data : List UInt8}
    (hend : b.writerIndex + data.length < 2 ^ 64) (hhold : b.CanHoldWith alloc data.length) :
    ∃ b', b.appendWith alloc data = .ok b' ∧ b'.Inv ∧ b'.content = b.content ++ data := by
  obtain ⟨b₁, hok, hinv, hcontent, hroom⟩ := h.ensureWriteableBytesWith_ok hend hhold
  have hadd : sizeAdd b₁.writerIndex data.length = b₁.writerIndex + data.length := by
    have hsize := hinv.sized
    simp only [maxSize] at hsize
    exact wordAdd_eq (by omega)
  obtain ⟨hinv', hcontent'⟩ := hinv.store hroom
  refine ⟨_, ?_, hinv', hcontent'.trans (by rw [hcontent])⟩
  rw [Buffer.appendWith, hok, ← hadd]
  simp only [ok_bind, copyTo]
  rw [if_pos hroom]
  rfl

/-- So it does with all the storage it asks for. -/
theorem Inv.append_ok (h : b.Inv) {data : List UInt8} (hend : b.writerIndex + data.length < 2 ^ 64)
    (hhold : b.CanHold data.length) :
    ∃ b', b.append data = .ok b' ∧ b'.Inv ∧ b'.content = b.content ++ data :=
  h.appendWith_ok hend hhold.unlimited

/-- A buffer that cannot hold `data` refuses it. -/
theorem Inv.append_error (h : b.Inv) {data : List UInt8}
    (hend : b.writerIndex + data.length < 2 ^ 64) (hhold : ¬ b.CanHold data.length) :
    b.append data = .error .lengthError := by
  have hensure := h.ensureWriteableBytes_error hend hhold
  rw [Buffer.ensureWriteableBytes] at hensure
  rw [Buffer.append, appendWith, hensure]
  rfl

/-- `writerIndex` and the size of an object in memory have a sum in range. -/
theorem Inv.sum_lt (h : b.Inv) {len : ℕ} (hlen : len ≤ maxSize) : b.writerIndex + len < 2 ^ 64 := by
  have hws := h.bounded
  have hsize := h.sized
  simp only [maxSize] at hsize hlen
  omega

/-- A completed `append` added `data` at the back. -/
theorem Inv.of_append (h : b.Inv) {data : List UInt8} {b' : Buffer} (hlen : data.length ≤ maxSize)
    (hok : b.append data = .ok b') : b'.Inv ∧ b'.content = b.content ++ data := by
  by_cases hhold : b.CanHold data.length
  · obtain ⟨b₁, hok₁, hinv, hcontent⟩ := h.append_ok (h.sum_lt hlen) hhold
    rw [hok, Except.ok.injEq] at hok₁
    exact hok₁ ▸ ⟨hinv, hcontent⟩
  · rw [h.append_error (h.sum_lt hlen) hhold] at hok
    contradiction

/-- An error leaves the buffer alone and goes into `*saveErrno`. -/
theorem readFd_failed (saveErrno errno : Errno) :
    b.readFd saveErrno (.failed errno) = .ok (b, -1, errno) := rfl

/-- `readFd` never offers more than the writable part and `extrabuf`. -/
theorem readOffer_le (b : Buffer) : b.readOffer ≤ b.writableBytes + extrabufSize := by
  unfold readOffer
  split <;> omega

/-- What fits into the writable part ends inside the vector. -/
theorem Inv.end_le (h : b.Inv) {len : ℕ} (hlen : len ≤ b.writableBytes) :
    b.writerIndex + len ≤ b.buffer.length := by
  have hwrite := h.writableBytes_eq
  have hws := h.bounded
  omega

/-- A buffer holds what fits into its writable part. -/
theorem Inv.canHold_of_le (h : b.Inv) {len : ℕ} (hlen : len ≤ b.writableBytes) : b.CanHold len :=
  .inr ((h.end_le hlen).trans h.sized)

/-- The buffer when the bytes behind the writable part are still in `extrabuf`. -/
def filled (b : Buffer) (bytes : List UInt8) : Buffer where
  buffer := overwrite b.buffer b.writerIndex (bytes.take b.writableBytes)
  readerIndex := b.readerIndex
  writerIndex := b.buffer.length

/-- A read beyond the writable part ends exactly at the end of the vector. -/
theorem Inv.take_end (h : b.Inv) {bytes : List UInt8} (hspill : b.writableBytes < bytes.length) :
    b.writerIndex + (bytes.take b.writableBytes).length = b.buffer.length := by
  have hwrite := h.writableBytes_eq
  have hws := h.bounded
  rw [List.length_take]
  omega

/-- Filling the writable part adds its share to the content. -/
theorem Inv.filled (h : b.Inv) {bytes : List UInt8} (hspill : b.writableBytes < bytes.length) :
    (b.filled bytes).Inv ∧
      (b.filled bytes).content = b.content ++ bytes.take b.writableBytes := by
  have hend := h.take_end hspill
  have hstore := h.store hend.le
  rw [hend] at hstore
  exact hstore

/-- A full vector has room for the rest of a read exactly when the vector has room for all of it, and it
grows to the same size otherwise. -/
theorem Inv.filled_room (h : b.Inv) {bytes : List UInt8}
    (hspill : b.writableBytes < bytes.length) :
    ((bytes.drop b.writableBytes).length + kCheapPrepend ≤
        (b.filled bytes).writableBytes + (b.filled bytes).prependableBytes ↔
      bytes.length + kCheapPrepend ≤ b.writableBytes + b.prependableBytes) ∧
      (b.filled bytes).writerIndex + (bytes.drop b.writableBytes).length =
        b.writerIndex + bytes.length := by
  have hlen : (b.filled bytes).buffer.length = b.buffer.length :=
    overwrite_length (h.take_end hspill).le
  have hfull : (b.filled bytes).writableBytes = 0 := by
    rw [(h.filled hspill).1.writableBytes_eq, hlen]
    exact Nat.sub_self _
  have hwrite := h.writableBytes_eq
  have hws := h.bounded
  rw [hfull, List.length_drop]
  simp only [Buffer.filled, prependableBytes]
  omega

/-- A full vector can hold the rest of a read exactly when the vector could hold all of it. -/
theorem Inv.filled_canHold (h : b.Inv) {bytes : List UInt8} (hspill : b.writableBytes < bytes.length) :
    (b.filled bytes).CanHold (bytes.drop b.writableBytes).length ↔ b.CanHold bytes.length := by
  obtain ⟨hroom, hsize⟩ := h.filled_room hspill
  rw [CanHold, CanHold, hroom, hsize]

/-- And so with an allocator. -/
theorem Inv.filled_canHoldWith (h : b.Inv) {bytes : List UInt8}
    (hspill : b.writableBytes < bytes.length) :
    (b.filled bytes).CanHoldWith alloc (bytes.drop b.writableBytes).length ↔
      b.CanHoldWith alloc bytes.length := by
  obtain ⟨hroom, hsize⟩ := h.filled_room hspill
  rw [CanHoldWith, CanHoldWith, hroom, hsize]

/-- A read within the writable part is stored there. -/
theorem Inv.readFdWith_direct (h : b.Inv) {bytes : List UInt8} (saveErrno : Errno)
    (hfits : bytes.length ≤ b.writableBytes) :
    b.readFdWith alloc saveErrno (.received bytes) =
      .ok (⟨overwrite b.buffer b.writerIndex bytes, b.readerIndex, b.writerIndex + bytes.length⟩,
        bytes.length, saveErrno) := by
  have hroom := h.end_le hfits
  have hadd : sizeAdd b.writerIndex bytes.length = b.writerIndex + bytes.length := by
    have hsize := h.sized
    simp only [maxSize] at hsize
    exact wordAdd_eq (by omega)
  simp only [readFdWith, if_pos hfits, copyTo, if_pos hroom, hadd, ok_bind, pure_eq_ok]

/-- A read beyond the writable part fills it and appends the rest. -/
theorem Inv.readFdWith_spill (h : b.Inv) {bytes : List UInt8} (saveErrno : Errno)
    (hspill : b.writableBytes < bytes.length) :
    b.readFdWith alloc saveErrno (.received bytes) = (do
      let b' ← (b.filled bytes).appendWith alloc (bytes.drop b.writableBytes)
      return (b', (bytes.length : ℤ), saveErrno)) := by
  have hroom := (h.take_end hspill).le
  simp only [readFdWith, if_neg hspill.not_ge, copyTo, if_pos hroom, ok_bind, overwrite_length hroom]
  rfl

/-- The part of a read that goes through `extrabuf` is the size of an object in memory. -/
theorem drop_length_le {bytes : List UInt8} (hoffer : bytes.length ≤ b.readOffer) :
    (bytes.drop b.writableBytes).length ≤ maxSize := by
  have hextra := b.readOffer_le
  simp only [extrabufSize] at hextra
  simp only [List.length_drop, maxSize]
  omega

/-- A buffer that can hold what `::readv` stored puts exactly this behind its content, whichever part
of it went through `extrabuf`. -/
theorem Inv.readFdWith_ok (h : b.Inv) {bytes : List UInt8} (saveErrno : Errno)
    (hoffer : bytes.length ≤ b.readOffer) (hhold : b.CanHoldWith alloc bytes.length) :
    ∃ b', b.readFdWith alloc saveErrno (.received bytes) = .ok (b', bytes.length, saveErrno) ∧ b'.Inv ∧
      b'.content = b.content ++ bytes := by
  rcases Nat.lt_or_ge b.writableBytes bytes.length with hspill | hfits
  · obtain ⟨hinv, hcontent⟩ := h.filled hspill
    obtain ⟨b', hok, hinv', hcontent'⟩ := hinv.appendWith_ok (hinv.sum_lt (drop_length_le hoffer))
      ((h.filled_canHoldWith hspill).mpr hhold)
    refine ⟨b', ?_, hinv', ?_⟩
    · rw [h.readFdWith_spill saveErrno hspill, hok]
      rfl
    · rw [hcontent', hcontent, List.append_assoc, List.take_append_drop]
  · exact ⟨_, h.readFdWith_direct saveErrno hfits, h.store (h.end_le hfits)⟩

/-- So it does with all the storage it asks for. -/
theorem Inv.readFd_ok (h : b.Inv) {bytes : List UInt8} (saveErrno : Errno)
    (hoffer : bytes.length ≤ b.readOffer) (hhold : b.CanHold bytes.length) :
    ∃ b', b.readFd saveErrno (.received bytes) = .ok (b', bytes.length, saveErrno) ∧ b'.Inv ∧
      b'.content = b.content ++ bytes :=
  h.readFdWith_ok saveErrno hoffer hhold.unlimited

/-- A buffer that cannot hold what `::readv` stored throws. -/
theorem Inv.readFd_error (h : b.Inv) {bytes : List UInt8} (saveErrno : Errno)
    (hoffer : bytes.length ≤ b.readOffer) (hhold : ¬ b.CanHold bytes.length) :
    b.readFd saveErrno (.received bytes) = .error .lengthError := by
  have hspill : b.writableBytes < bytes.length := not_le.mp fun hle => hhold (h.canHold_of_le hle)
  have hinv := (h.filled hspill).1
  have happend := hinv.append_error (hinv.sum_lt (drop_length_le hoffer))
    (mt (h.filled_canHold hspill).mp hhold)
  rw [Buffer.append] at happend
  rw [readFd, h.readFdWith_spill saveErrno hspill, happend]
  rfl

/-- A completed `readFd` that received bytes put exactly these behind the content and returned
their number. -/
theorem Inv.of_readFd (h : b.Inv) {bytes : List UInt8} {saveErrno errno : Errno} {b' : Buffer}
    {n : ℤ} (hoffer : bytes.length ≤ b.readOffer)
    (hok : b.readFd saveErrno (.received bytes) = .ok (b', n, errno)) :
    b'.Inv ∧ b'.content = b.content ++ bytes ∧ n = bytes.length := by
  by_cases hhold : b.CanHold bytes.length
  · obtain ⟨b₁, hok₁, hinv, hcontent⟩ := h.readFd_ok saveErrno hoffer hhold
    rw [hok₁, Except.ok.injEq, Prod.mk.injEq, Prod.mk.injEq] at hok
    obtain ⟨rfl, rfl, -⟩ := hok
    exact ⟨hinv, hcontent, rfl⟩
  · rw [h.readFd_error saveErrno hoffer hhold] at hok
    contradiction

end Buffer

end CcMuduo
