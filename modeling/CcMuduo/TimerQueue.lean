import CcMuduo.Foundation.OrderedSet
import CcMuduo.Foundation.Word
import Mathlib.Order.Nat
import Mathlib.Data.Int.Notation

/-!
# The timer queue

`Timer` and `TimerQueue` as far as they act on `timers`, the set of entries ordered by key and, at
equal keys, by the address of the timer object. A key is the expiration the timer had when it was
inserted. Time points and durations are clock ticks, of 64 bits in the code, so that the sum `restart`
makes of them wraps.

`timerfd` is the expiration that `resetTimerfd` was last given. A callback is opaque; what it does to
the queue is to cancel, and each pass of `handleRead` is told which sequences its callbacks cancel.
-/

namespace CcMuduo

open Foundation

/-- A `Timer` object: its address, whether `callback_` is set, and the fields of its constructor. -/
structure Timer where
  address : ℕ
  callback : Bool
  expiration : ℤ
  interval : ℤ
  sequence : ℕ
  deriving DecidableEq, Repr

namespace Timer

variable (t : Timer)

/-- `repeat()`, which the constructor decides. -/
def repeats : Bool := decide (0 < t.interval)

/-- `restart(now)`. -/
def restart (now : ℤ) : Timer :=
  if t.repeats then { t with expiration := signedAdd 64 now t.interval } else { t with expiration := 0 }

/-- `restart` counts an interval from the reading when the sum fits. -/
theorem restart_of_repeats {now : ℤ} (h : t.repeats = true) (hfits : IsSigned 64 (now + t.interval)) :
    t.restart now = { t with expiration := now + t.interval } := by
  rw [restart, if_pos h, signedAdd_eq (by decide) hfits]

/-- `restart` changes neither the object nor its sequence. -/
theorem restart_identity (now : ℤ) :
    (t.restart now).address = t.address ∧ (t.restart now).sequence = t.sequence := by
  unfold restart
  split <;> exact ⟨rfl, rfl⟩

end Timer

/-- An entry of `timers`: the key and the timer. -/
abbrev Entry := ℤ × Timer

/-- The order of the entries. -/
def Entry.lt (a b : Entry) : Bool :=
  decide (a.1 < b.1) || (a.1 == b.1 && decide (a.2.address < b.2.address))

/-- The set of timers, and what `resetTimerfd` was last given. -/
structure TimerQueue where
  timers : List Entry
  timerfd : Option ℤ
  deriving DecidableEq, Repr

/-- One pass of `handleRead`: the time it reads, and the sequences each callback of it cancels. -/
structure Pass where
  now : ℤ
  cancels : Timer → List ℕ

namespace TimerQueue

variable (q : TimerQueue)

/-- `insert`, without its answer `earliestChanged`, which no caller reads. -/
def insert (timer : Timer) : TimerQueue :=
  let key := timer.expiration
  let earliestChanged := q.timers.head?.all fun e => decide (key < e.1)
  { timers := insertOrdered Entry.lt (key, timer) q.timers
    timerfd := if earliestChanged then some key else q.timerfd }

/-- The functor of `cancel` erases the first entry with the sequence. -/
def cancel (sequence : ℕ) : TimerQueue :=
  { q with timers := q.timers.eraseP fun e => e.2.sequence == sequence }

/-- `getExpired`: the entries below `(now, nullptr)`, which no address is below, and the others. -/
def getExpired (now : ℤ) : List Entry × TimerQueue :=
  (q.timers.takeWhile fun e => decide (e.1 < now),
    { q with timers := q.timers.dropWhile fun e => decide (e.1 < now) })

/-- The loop of `reset`. -/
def reinsert (expired : List Entry) (now : ℤ) : TimerQueue :=
  expired.foldl (fun q e => if e.2.repeats then q.insert (e.2.restart now) else q) q

/-- `reset`. -/
def reset (expired : List Entry) (now : ℤ) : TimerQueue :=
  let q₁ := q.reinsert expired now
  match q₁.timers with
  | [] => q₁
  | e :: _ => { q₁ with timerfd := some e.1 }

/-- The callback of one timer, when it is set. -/
def runTimer (cancels : Timer → List ℕ) (t : Timer) : TimerQueue :=
  if t.callback then (cancels t).foldl cancel q else q

/-- The timers that a pass takes out, in the order their callbacks are run. -/
def batch (now : ℤ) : List Entry := (q.getExpired now).1

/-- `handleRead`. -/
def handleRead (p : Pass) : TimerQueue :=
  let (expired, q₁) := q.getExpired p.now
  let q₂ := expired.foldl (fun q e => q.runTimer p.cancels e.2) q₁
  q₂.reset expired p.now

/-- The sequences of the timers a pass runs the callbacks of. -/
def started (now : ℤ) : List ℕ := ((q.batch now).filter fun e => e.2.callback).map fun e => e.2.sequence

variable {q}

/-- The entries behind an insertion are the new one and old ones. -/
theorem mem_insert {timer : Timer} {e : Entry} (h : e ∈ (q.insert timer).timers) :
    e = (timer.expiration, timer) ∨ e ∈ q.timers :=
  mem_of_mem_insertOrdered h

/-- An insertion removes nothing. -/
theorem mem_insert_of_mem {timer : Timer} {e : Entry} (h : e ∈ q.timers) :
    e ∈ (q.insert timer).timers :=
  mem_insertOrdered_of_mem h

/-- Cancelling only removes. -/
theorem mem_of_mem_cancel {sequence : ℕ} {e : Entry} (h : e ∈ (q.cancel sequence).timers) :
    e ∈ q.timers :=
  List.mem_of_mem_eraseP h

/-- The entries taken out and the entries left are the entries. -/
theorem getExpired_append (q : TimerQueue) (now : ℤ) :
    (q.getExpired now).1 ++ (q.getExpired now).2.timers = q.timers :=
  List.takeWhile_append_dropWhile

/-- One round of the loop of `reset`. -/
theorem reinsert_cons (e : Entry) (rest : List Entry) (now : ℤ) :
    q.reinsert (e :: rest) now =
      (if e.2.repeats then q.insert (e.2.restart now) else q).reinsert rest now := rfl

/-- `reset` and its loop leave the same timers. -/
theorem reset_timers (q : TimerQueue) (expired : List Entry) (now : ℤ) :
    (q.reset expired now).timers = (q.reinsert expired now).timers := by
  unfold reset
  cases h : (q.reinsert expired now).timers with
  | nil => simp [h]
  | cons e rest => simp [h]

/-- How many entries of a list have the sequence. -/
def copies (sequence : ℕ) (entries : List Entry) : ℕ :=
  entries.countP fun e => e.2.sequence == sequence

/-- An insertion adds one copy of its timer at most. -/
theorem copies_insert_le (q : TimerQueue) (timer : Timer) (sequence : ℕ) :
    copies sequence (q.insert timer).timers ≤
      copies sequence q.timers + if timer.sequence = sequence then 1 else 0 := by
  have h := countP_insertOrdered_le Entry.lt (fun e => e.2.sequence == sequence)
    (timer.expiration, timer) q.timers
  simpa [copies, insert] using h

/-- Cancelling adds no copy. -/
theorem copies_cancel_le (q : TimerQueue) (cancelled sequence : ℕ) :
    copies sequence (q.cancel cancelled).timers ≤ copies sequence q.timers :=
  List.eraseP_sublist.countP_le

/-- Cancelling a timer of which there is one copy at most leaves none. -/
theorem copies_cancel_self (q : TimerQueue) (sequence : ℕ) (h : copies sequence q.timers ≤ 1) :
    copies sequence (q.cancel sequence).timers = 0 := by
  unfold copies cancel at *
  by_cases hmem : ∃ e ∈ q.timers, (e.2.sequence == sequence) = true
  · obtain ⟨e, he, hseq⟩ := hmem
    obtain ⟨e', front, back, -, hseq', heq, herase⟩ :=
      List.exists_of_eraseP (p := fun e => e.2.sequence == sequence) he hseq
    rw [heq, List.countP_append, List.countP_cons, hseq'] at h
    simp only [herase, List.countP_append]
    simp only [if_true] at h
    omega
  · have hnone : ∀ e ∈ q.timers, ¬ (e.2.sequence == sequence) = true := fun e he hseq =>
      hmem ⟨e, he, hseq⟩
    simp only [List.eraseP_of_forall_not hnone]
    exact List.countP_eq_zero.mpr hnone

/-- Taking the expired entries out loses no copy and makes none. -/
theorem copies_getExpired (q : TimerQueue) (now : ℤ) (sequence : ℕ) :
    copies sequence (q.getExpired now).1 + copies sequence (q.getExpired now).2.timers =
      copies sequence q.timers := by
  conv_rhs => rw [← q.getExpired_append now]
  exact List.countP_append.symm

/-- The loop of `reset` makes copies of expired timers only. -/
theorem copies_reinsert_le (q : TimerQueue) (expired : List Entry) (now : ℤ) (sequence : ℕ) :
    copies sequence (q.reinsert expired now).timers ≤
      copies sequence q.timers + copies sequence expired := by
  induction expired generalizing q with
  | nil => exact Nat.le_add_right _ _
  | cons e rest ih =>
    have hrest := ih (if e.2.repeats then q.insert (e.2.restart now) else q)
    have hfirst : copies sequence (if e.2.repeats then q.insert (e.2.restart now) else q).timers ≤
        copies sequence q.timers + if e.2.sequence = sequence then 1 else 0 := by
      split
      · have hinsert := q.copies_insert_le (e.2.restart now) sequence
        rwa [(e.2.restart_identity now).2] at hinsert
      · exact Nat.le_add_right _ _
    have hcons : copies sequence (e :: rest) =
        copies sequence rest + if e.2.sequence = sequence then 1 else 0 := by
      simp [copies, List.countP_cons]
    rw [reinsert_cons, hcons]
    omega

end TimerQueue

end CcMuduo
