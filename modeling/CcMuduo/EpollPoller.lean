import CcMuduo.Basic
import CcMuduo.Foundation.Mask
import Mathlib.Logic.Function.Basic

/-!
# Channels and the epoll poller

A channel holds the events its owner is interested in and the poller's record of it, `index`. The
poller keeps the map `channels` from descriptors to channel objects and asks the kernel, through
`epoll_ctl`, to keep its own interest set in step.

`EpollPoller.Tracks` says that the three records agree on where the channel is. Every call keeps
it, and what a call does to the records of one descriptor leaves every other descriptor alone.
-/

namespace CcMuduo

open Foundation

/-- A set of epoll events. -/
abbrev Mask := BitVec 32

/-- The epoll event bits. -/
def EPOLLIN : Mask := 0x001
@[inherit_doc EPOLLIN] def EPOLLPRI : Mask := 0x002
@[inherit_doc EPOLLIN] def EPOLLOUT : Mask := 0x004
@[inherit_doc EPOLLIN] def EPOLLERR : Mask := 0x008
@[inherit_doc EPOLLIN] def EPOLLHUP : Mask := 0x010
@[inherit_doc EPOLLIN] def EPOLLRDHUP : Mask := 0x2000

/-- The event sets a channel registers. -/
def kNoneEvent : Mask := 0
@[inherit_doc kNoneEvent] def kReadEvent : Mask := EPOLLIN ||| EPOLLPRI
@[inherit_doc kNoneEvent] def kWriteEvent : Mask := EPOLLOUT

/-- The poller's record in a channel: never added, added, or removed from the kernel set. -/
inductive PollerIndex where
  | kNew
  | kAdded
  | kDeleted
  deriving DecidableEq, Repr

/-- A channel object. `address` is the object's identity, which the poller stores. -/
structure Channel where
  address : ℕ
  fd : ℕ
  events : Mask
  index : PollerIndex
  deriving DecidableEq, Repr

namespace Channel

variable (c : Channel)

/-- No event is of interest. -/
def isNoneEvent : Bool := c.events == kNoneEvent

/-- The write interest. -/
def isWriting : Bool := hasAny c.events kWriteEvent

/-- The read interest. -/
def isReading : Bool := hasAny c.events kReadEvent

end Channel

/-- The operations of `epoll_ctl`. -/
inductive CtlOp where
  | add
  | mod
  | del
  deriving DecidableEq, Repr

/-- The poller's map and the kernel's interest set, both by descriptor. The kernel stores the event
mask and the pointer it was given. -/
structure EpollPoller where
  channels : ℕ → Option ℕ
  interest : ℕ → Option (Mask × ℕ)

namespace EpollPoller

/-- The poller before any channel is known to it. -/
def empty : EpollPoller := ⟨fun _ => none, fun _ => none⟩

variable (p : EpollPoller)

/-- `epoll_ctl` refuses to add a registered descriptor and to modify or delete an unregistered one.
A refused deletion is only logged; the other refusals end the process. -/
def update (operation : CtlOp) (c : Channel) : Except Fault EpollPoller :=
  match operation, p.interest c.fd with
  | .add, none =>
    .ok { p with interest := Function.update p.interest c.fd (some (c.events, c.address)) }
  | .mod, some _ =>
    .ok { p with interest := Function.update p.interest c.fd (some (c.events, c.address)) }
  | .del, some _ => .ok { p with interest := Function.update p.interest c.fd none }
  | .del, none => .ok p
  | .add, some _ => .error .fatal
  | .mod, none => .error .fatal

/-- The branch is chosen by `index` before the event set is looked at. -/
def updateChannel (c : Channel) : Except Fault (EpollPoller × Channel) :=
  if c.index = .kNew ∨ c.index = .kDeleted then do
    let p₁ : EpollPoller :=
      if c.index = .kNew then
        { p with channels := Function.update p.channels c.fd (some c.address) }
      else p
    let c' := { c with index := .kAdded }
    let p₂ ← p₁.update .add c'
    return (p₂, c')
  else if c.isNoneEvent then do
    let c' := { c with index := .kDeleted }
    let p₁ ← p.update .del c'
    return (p₁, c')
  else do
    let p₁ ← p.update .mod c
    return (p₁, c)

/-- Forget the channel, and take it out of the kernel set when it is still there. -/
def removeChannel (c : Channel) : Except Fault (EpollPoller × Channel) := do
  let p₁ : EpollPoller := { p with channels := Function.update p.channels c.fd none }
  let p₂ ← if c.index = .kAdded then p₁.update .del c else .ok p₁
  return (p₂, { c with index := .kNew })

/-- `Poller::hasChannel`. -/
def hasChannel (c : Channel) : Bool := p.channels c.fd == some c.address

/-- `index`, the map and the kernel set agree on where the channel is. -/
def Tracks (c : Channel) : Prop :=
  match c.index with
  | .kNew => p.channels c.fd = none ∧ p.interest c.fd = none
  | .kAdded => p.channels c.fd = some c.address ∧ ∃ mask, p.interest c.fd = some (mask, c.address)
  | .kDeleted => p.channels c.fd = some c.address ∧ p.interest c.fd = none

/-- The records of every descriptor but one are the same. -/
def SameExcept (q : EpollPoller) (fd : ℕ) : Prop :=
  ∀ other, other ≠ fd → q.channels other = p.channels other ∧ q.interest other = p.interest other

variable {p}

/-- Where a tracked channel is, read off its index. -/
theorem Tracks.unregistered {c : Channel} (h : p.Tracks c) (hindex : c.index ≠ .kAdded) :
    p.interest c.fd = none := by
  unfold Tracks at h
  cases hi : c.index <;> simp_all

/-- A completed `updateChannel` has changed nothing of the channel but its index. -/
theorem updateChannel_channel {c c' : Channel} {q : EpollPoller}
    (h : p.updateChannel c = .ok (q, c')) : ∃ index, c' = { c with index := index } := by
  unfold EpollPoller.updateChannel at h
  split at h
  · obtain ⟨_, -, hret⟩ := bind_eq_ok.mp h
    simp only [pure_eq_ok, Except.ok.injEq, Prod.mk.injEq] at hret
    exact ⟨.kAdded, hret.2.symm⟩
  · split at h
    · obtain ⟨_, -, hret⟩ := bind_eq_ok.mp h
      simp only [pure_eq_ok, Except.ok.injEq, Prod.mk.injEq] at hret
      exact ⟨.kDeleted, hret.2.symm⟩
    · obtain ⟨_, -, hret⟩ := bind_eq_ok.mp h
      simp only [pure_eq_ok, Except.ok.injEq, Prod.mk.injEq] at hret
      exact ⟨c.index, hret.2.symm⟩

/-- A completed `update` has touched the records of one descriptor only. -/
theorem update_sameExcept {operation : CtlOp} {c : Channel} {q : EpollPoller}
    (h : p.update operation c = .ok q) : p.SameExcept q c.fd := by
  intro other hne
  unfold EpollPoller.update at h
  split at h
  case h_4 => exact Except.ok.inj h ▸ ⟨rfl, rfl⟩
  case h_5 | h_6 => contradiction
  all_goals
    obtain rfl := Except.ok.inj h
    simp [hne]

/-- A completed `updateChannel` has touched the records of its descriptor only. -/
theorem updateChannel_sameExcept {c c' : Channel} {q : EpollPoller}
    (h : p.updateChannel c = .ok (q, c')) : p.SameExcept q c.fd := by
  unfold EpollPoller.updateChannel at h
  split at h
  · obtain ⟨p₂, hupdate, hret⟩ := bind_eq_ok.mp h
    simp only [pure_eq_ok, Except.ok.injEq, Prod.mk.injEq] at hret
    rw [← hret.1]
    intro other hne
    obtain ⟨hmap, hset⟩ := update_sameExcept hupdate other hne
    rw [hmap, hset]
    split
    · exact ⟨Function.update_of_ne hne _ _, rfl⟩
    · exact ⟨rfl, rfl⟩
  · split at h
    · obtain ⟨p₁, hupdate, hret⟩ := bind_eq_ok.mp h
      simp only [pure_eq_ok, Except.ok.injEq, Prod.mk.injEq] at hret
      rw [← hret.1]
      exact update_sameExcept (c := { c with index := .kDeleted }) hupdate
    · obtain ⟨p₁, hupdate, hret⟩ := bind_eq_ok.mp h
      simp only [pure_eq_ok, Except.ok.injEq, Prod.mk.injEq] at hret
      rw [← hret.1]
      exact update_sameExcept hupdate

/-- A completed `removeChannel` has touched the records of its descriptor only, and nothing of the
channel but its index. -/
theorem removeChannel_sameExcept {c c' : Channel} {q : EpollPoller}
    (h : p.removeChannel c = .ok (q, c')) :
    p.SameExcept q c.fd ∧ c' = { c with index := .kNew } := by
  have hmap (other : ℕ) (hne : other ≠ c.fd) :
      Function.update p.channels c.fd none other = p.channels other :=
    Function.update_of_ne hne _ _
  unfold EpollPoller.removeChannel at h
  dsimp only at h
  split at h
  · obtain ⟨p₂, hp₂, hret⟩ := bind_eq_ok.mp h
    simp only [pure_eq_ok, Except.ok.injEq, Prod.mk.injEq] at hret
    refine ⟨fun other hne => ?_, hret.2.symm⟩
    obtain ⟨h₁, h₂⟩ := update_sameExcept hp₂ other hne
    rw [← hret.1]
    exact ⟨h₁.trans (hmap other hne), h₂⟩
  · simp only [ok_bind, pure_eq_ok, Except.ok.injEq, Prod.mk.injEq] at h
    obtain ⟨rfl, rfl⟩ := h
    exact ⟨fun other hne => ⟨hmap other hne, rfl⟩, rfl⟩

/-- `updateChannel` on a tracked channel completes. It leaves the channel deleted exactly when it
was added and has no event left; in every other case it leaves it added with its event set. -/
theorem Tracks.updateChannel {c : Channel} (h : p.Tracks c) :
    ∃ q, p.updateChannel c = .ok (q,
        { c with index := if c.index = .kAdded ∧ c.isNoneEvent then .kDeleted else .kAdded }) ∧
      q.channels c.fd = some c.address ∧
      q.interest c.fd =
        (if c.index = .kAdded ∧ c.isNoneEvent then none else some (c.events, c.address)) ∧
      p.SameExcept q c.fd := by
  obtain ⟨address, fd, events, index⟩ := c
  cases index with
  | kNew =>
    refine ⟨⟨Function.update p.channels fd (some address),
      Function.update p.interest fd (some (events, address))⟩, ?_, by simp, by simp, ?_⟩
    · simp [EpollPoller.updateChannel, EpollPoller.update, h.2]
    · intro other hne
      simp [hne]
  | kDeleted =>
    refine ⟨{ p with interest := Function.update p.interest fd (some (events, address)) },
      ?_, h.1, by simp, ?_⟩
    · simp [EpollPoller.updateChannel, EpollPoller.update, h.2]
    · intro other hne
      simp [hne]
  | kAdded =>
    obtain ⟨hmap, mask, hset⟩ := h
    cases hnone : Channel.isNoneEvent ⟨address, fd, events, .kAdded⟩ with
    | true =>
      refine ⟨{ p with interest := Function.update p.interest fd none }, ?_, hmap, by simp, ?_⟩
      · simp [EpollPoller.updateChannel, EpollPoller.update, hset, hnone]
      · intro other hne
        simp [hne]
    | false =>
      refine ⟨{ p with interest := Function.update p.interest fd (some (events, address)) },
        ?_, hmap, by simp, ?_⟩
      · simp [EpollPoller.updateChannel, EpollPoller.update, hset, hnone]
      · intro other hne
        simp [hne]

/-- `removeChannel` on a tracked channel completes and leaves no record of it. -/
theorem Tracks.removeChannel {c : Channel} (h : p.Tracks c) :
    ∃ q, p.removeChannel c = .ok (q, { c with index := .kNew }) ∧
      q.channels c.fd = none ∧ q.interest c.fd = none ∧ p.SameExcept q c.fd := by
  obtain ⟨address, fd, events, index⟩ := c
  cases index with
  | kNew =>
    refine ⟨{ p with channels := Function.update p.channels fd none }, ?_, by simp, h.2, ?_⟩
    · simp [EpollPoller.removeChannel]
    · intro other hne
      simp [hne]
  | kDeleted =>
    refine ⟨{ p with channels := Function.update p.channels fd none }, ?_, by simp, h.2, ?_⟩
    · simp [EpollPoller.removeChannel]
    · intro other hne
      simp [hne]
  | kAdded =>
    obtain ⟨-, mask, hset⟩ := h
    refine ⟨⟨Function.update p.channels fd none, Function.update p.interest fd none⟩,
      ?_, by simp, by simp, ?_⟩
    · simp [EpollPoller.removeChannel, EpollPoller.update, hset]
    · intro other hne
      simp [hne]

end EpollPoller

namespace Channel

variable (c : Channel) (p : EpollPoller)

/-- Add the read interest and tell the poller. -/
def enableReading : Except Fault (EpollPoller × Channel) :=
  p.updateChannel { c with events := c.events ||| kReadEvent }

/-- Drop the read interest and tell the poller. -/
def disableReading : Except Fault (EpollPoller × Channel) :=
  p.updateChannel { c with events := c.events &&& ~~~kReadEvent }

/-- Add the write interest and tell the poller. -/
def enableWriting : Except Fault (EpollPoller × Channel) :=
  p.updateChannel { c with events := c.events ||| kWriteEvent }

/-- Drop the write interest and tell the poller. -/
def disableWriting : Except Fault (EpollPoller × Channel) :=
  p.updateChannel { c with events := c.events &&& ~~~kWriteEvent }

/-- Drop every interest and tell the poller. -/
def disableAll : Except Fault (EpollPoller × Channel) :=
  p.updateChannel { c with events := kNoneEvent }

/-- Take the channel out of the poller. -/
def remove : Except Fault (EpollPoller × Channel) := p.removeChannel c

/-- The operation that `updateChannel` asks of the kernel. -/
def updateOperation : CtlOp :=
  if c.index = .kNew ∨ c.index = .kDeleted then .add else if c.isNoneEvent then .del else .mod

/-- The operation that `removeChannel` asks of the kernel. -/
def removeOperation : Option CtlOp := if c.index = .kAdded then some .del else none

/-- The index that `updateChannel` sets. -/
def updateIndex : PollerIndex :=
  match c.updateOperation with
  | .add => .kAdded
  | .del => .kDeleted
  | .mod => c.index

/-- `updateChannel` makes one `epoll_ctl` call, with its operation, on the kernel set it found. -/
theorem updateChannel_eq (p : EpollPoller) :
    ∃ p₁ : EpollPoller, p₁.interest = p.interest ∧
      p.updateChannel c = (p₁.update c.updateOperation { c with index := c.updateIndex }).map
        fun q => (q, { c with index := c.updateIndex }) := by
  by_cases hadd : c.index = .kNew ∨ c.index = .kDeleted
  · have hop : c.updateOperation = .add := if_pos hadd
    refine ⟨if c.index = .kNew then
      { p with channels := Function.update p.channels c.fd (some c.address) } else p, ?_, ?_⟩
    · split <;> rfl
    · rw [EpollPoller.updateChannel, if_pos hadd, updateIndex, hop]
      rfl
  · refine ⟨p, rfl, ?_⟩
    cases hnone : c.isNoneEvent with
    | true =>
      have hop : c.updateOperation = .del := by rw [updateOperation, if_neg hadd, if_pos hnone]
      rw [EpollPoller.updateChannel, if_neg hadd, if_pos hnone, updateIndex, hop]
      rfl
    | false =>
      have hop : c.updateOperation = .mod := by
        rw [updateOperation, if_neg hadd, hnone]
        rfl
      rw [EpollPoller.updateChannel, if_neg hadd, hnone, updateIndex, hop]
      rfl

/-- `removeChannel` makes one `epoll_ctl` call at most, with its operation, on the kernel set it
found. -/
theorem removeChannel_eq (p : EpollPoller) :
    ∃ p₁ : EpollPoller, p₁.interest = p.interest ∧
      p.removeChannel c = (match c.removeOperation with
        | some operation => p₁.update operation c
        | none => .ok p₁).map fun q => (q, { c with index := .kNew }) := by
  refine ⟨{ p with channels := Function.update p.channels c.fd none }, rfl, ?_⟩
  by_cases hadded : c.index = .kAdded
  · rw [EpollPoller.removeChannel, removeOperation, if_pos hadded, if_pos hadded]
    rfl
  · rw [EpollPoller.removeChannel, removeOperation, if_neg hadded, if_neg hadded]
    rfl

end Channel

end CcMuduo
