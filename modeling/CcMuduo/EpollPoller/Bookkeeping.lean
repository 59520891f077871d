import CcMuduo.EpollPoller
import CcMuduo.Foundation.Run

/-!
# The poller's books and the kernel

Any number of channels on distinct descriptors, enabled, disabled and removed in any order. After every
call the three records of each channel agree: its `index`, the poller's map, and the kernel's interest
set with the mask the channel has now. So the kernel is never asked to add a registered descriptor, or
to modify or delete an unregistered one, and the fatal branch of `update` is unreachable.
-/

namespace CcMuduo

open Foundation

namespace EpollPoller

variable (p : EpollPoller)

/-- Does the kernel take the operation on the descriptor? -/
def accepts (operation : CtlOp) (fd : ℕ) : Bool :=
  match operation with
  | .add => (p.interest fd).isNone
  | .mod | .del => (p.interest fd).isSome

/-- A refused operation is fatal, except for a deletion, which changes nothing. -/
theorem update_refused {operation : CtlOp} {c : Channel} (h : p.accepts operation c.fd = false) :
    p.update operation c = if operation = .del then .ok p else .error .fatal := by
  unfold accepts at h
  unfold EpollPoller.update
  cases operation <;> cases hset : p.interest c.fd <;> simp_all

/-- The three records of a channel agree, and the kernel's mask is the channel's. -/
def Recorded (c : Channel) : Prop :=
  match c.index with
  | .kNew => p.channels c.fd = none ∧ p.interest c.fd = none
  | .kAdded => p.channels c.fd = some c.address ∧ p.interest c.fd = some (c.events, c.address)
  | .kDeleted => p.channels c.fd = some c.address ∧ p.interest c.fd = none

variable {p}

/-- A recorded channel is tracked. -/
theorem Recorded.tracks {c : Channel} (h : p.Recorded c) : p.Tracks c := by
  unfold Recorded at h
  unfold Tracks
  cases hi : c.index with
  | kNew | kDeleted => simpa only [hi] using h
  | kAdded =>
    simp only [hi] at h
    exact ⟨h.1, c.events, h.2⟩

/-- The records of other descriptors do not matter. -/
theorem Recorded.frame {q : EpollPoller} {c : Channel} {fd : ℕ} (h : p.Recorded c)
    (hframe : p.SameExcept q fd) (hne : c.fd ≠ fd) : q.Recorded c := by
  obtain ⟨hmap, hset⟩ := hframe c.fd hne
  unfold Recorded at h ⊢
  rw [hmap, hset]
  exact h

/-- A recorded channel is still tracked when its events change. -/
theorem Recorded.tracks_events {c : Channel} (h : p.Recorded c) (events : Mask) :
    p.Tracks { c with events := events } := by
  have htracks := h.tracks
  unfold Tracks at htracks ⊢
  exact htracks

/-- The kernel takes what `updateChannel` asks for a recorded channel, whatever its events are now. -/
theorem Recorded.accepts_update {c : Channel} (h : p.Recorded c) (events : Mask) :
    p.accepts ({ c with events := events } : Channel).updateOperation c.fd = true := by
  unfold Recorded at h
  unfold Channel.updateOperation
  cases hi : c.index with
  | kNew => simp [accepts, (hi ▸ h).2]
  | kDeleted => simp [accepts, (hi ▸ h).2]
  | kAdded =>
    have hset := (hi ▸ h).2
    simp only [reduceCtorEq, or_self, if_false]
    split <;> simp [accepts, hset]

/-- The kernel takes what `removeChannel` asks for a recorded channel. -/
theorem Recorded.accepts_remove {c : Channel} (h : p.Recorded c) {operation : CtlOp}
    (hop : c.removeOperation = some operation) : p.accepts operation c.fd = true := by
  unfold Channel.removeOperation at hop
  split at hop
  · rename_i hadded
    unfold Recorded at h
    obtain rfl := Option.some.inj hop
    simp [accepts, (hadded ▸ h).2]
  · contradiction

/-- `updateChannel` on a recorded channel completes and records it with its events of now. -/
theorem Recorded.updateChannel {c : Channel} (h : p.Recorded c) (events : Mask) :
    ∃ q c', p.updateChannel { c with events := events } = .ok (q, c') ∧ c'.fd = c.fd ∧
      c'.address = c.address ∧ q.Recorded c' ∧ p.SameExcept q c.fd := by
  obtain ⟨q, hok, hmap, hset, hframe⟩ := (h.tracks_events events).updateChannel
  refine ⟨q, _, hok, rfl, rfl, ?_, hframe⟩
  unfold Recorded
  dsimp only at hmap hset ⊢
  split at hset
  · rename_i hdel
    simp only [if_pos hdel]
    exact ⟨hmap, hset⟩
  · rename_i hdel
    simp only [if_neg hdel]
    exact ⟨hmap, hset⟩

/-- `removeChannel` on a recorded channel completes and leaves no record of it. -/
theorem Recorded.removeChannel {c : Channel} (h : p.Recorded c) :
    ∃ q c', p.removeChannel c = .ok (q, c') ∧ c'.fd = c.fd ∧ c'.address = c.address ∧
      q.Recorded c' ∧ p.SameExcept q c.fd := by
  obtain ⟨q, hok, hmap, hset, hframe⟩ := h.tracks.removeChannel
  exact ⟨q, _, hok, rfl, rfl, ⟨hmap, hset⟩, hframe⟩

end EpollPoller

/-- A call on a channel that reaches the poller. -/
inductive ChannelCall where
  | enableReading
  | disableReading
  | enableWriting
  | disableWriting
  | disableAll
  | remove
  deriving DecidableEq, Repr

namespace ChannelCall

/-- The call. -/
def apply (c : Channel) (p : EpollPoller) : ChannelCall → Except Fault (EpollPoller × Channel)
  | .enableReading => c.enableReading p
  | .disableReading => c.disableReading p
  | .enableWriting => c.enableWriting p
  | .disableWriting => c.disableWriting p
  | .disableAll => c.disableAll p
  | .remove => c.remove p

/-- The events the call leaves in the channel. -/
def events (c : Channel) : ChannelCall → Mask
  | .enableReading => c.events ||| kReadEvent
  | .disableReading => c.events &&& ~~~kReadEvent
  | .enableWriting => c.events ||| kWriteEvent
  | .disableWriting => c.events &&& ~~~kWriteEvent
  | .disableAll => kNoneEvent
  | .remove => c.events

/-- The operation that the call asks of the kernel. -/
def operation (c : Channel) : ChannelCall → Option CtlOp
  | .remove => c.removeOperation
  | call => some { c with events := call.events c }.updateOperation

/-- Every call on a recorded channel completes and leaves the channel recorded. -/
theorem apply_recorded (call : ChannelCall) {c : Channel} {p : EpollPoller} (h : p.Recorded c) :
    ∃ q c', call.apply c p = .ok (q, c') ∧ c'.fd = c.fd ∧ c'.address = c.address ∧
      q.Recorded c' ∧ p.SameExcept q c.fd := by
  cases call with
  | remove => exact h.removeChannel
  | enableReading => exact h.updateChannel _
  | disableReading => exact h.updateChannel _
  | enableWriting => exact h.updateChannel _
  | disableWriting => exact h.updateChannel _
  | disableAll => exact h.updateChannel _

/-- The kernel takes what a call on a recorded channel asks of it. -/
theorem accepts_recorded (call : ChannelCall) {c : Channel} {p : EpollPoller} (h : p.Recorded c)
    {operation : CtlOp} (hop : call.operation c = some operation) :
    p.accepts operation c.fd = true := by
  cases call with
  | remove => exact h.accepts_remove hop
  | enableReading | disableReading | enableWriting | disableWriting | disableAll =>
    obtain rfl := Option.some.inj hop
    exact h.accepts_update _

end ChannelCall

/-- New channels on distinct descriptors that their poller does not know. -/
structure ChannelSet (ι : Type*) where
  address : ι → ℕ
  fd : ι → ℕ
  poller : EpollPoller
  distinct : Function.Injective fd
  unknown : ∀ i, poller.channels (fd i) = none ∧ poller.interest (fd i) = none

/-- A poller with its channels. -/
structure PollerSystem (ι : Type*) where
  poller : EpollPoller
  channel : ι → Channel

/-- The channels behind their constructors. -/
def ChannelSet.start {ι : Type*} (set : ChannelSet ι) : PollerSystem ι where
  poller := set.poller
  channel i := ⟨set.address i, set.fd i, kNoneEvent, .kNew⟩

namespace PollerSystem

variable {ι : Type*} [DecidableEq ι]

/-- One call on one channel. -/
def step (s : PollerSystem ι) (label : ι × ChannelCall) : Option (PollerSystem ι) :=
  (label.2.apply (s.channel label.1) s.poller).toOption.map fun r =>
    ⟨r.1, Function.update s.channel label.1 r.2⟩

/-- What the books say about one channel, and what the kernel will say to every next call on it. -/
structure Agrees (s : PollerSystem ι) (i : ι) : Prop where
  new : (s.channel i).index = .kNew ↔ s.poller.channels (s.channel i).fd = none
  hasChannel : (s.channel i).index = .kNew ↔ s.poller.hasChannel (s.channel i) = false
  added : (s.channel i).index = .kAdded ↔ s.poller.hasChannel (s.channel i) = true ∧
    s.poller.interest (s.channel i).fd = some ((s.channel i).events, (s.channel i).address)
  deleted : (s.channel i).index = .kDeleted ↔ s.poller.hasChannel (s.channel i) = true ∧
    s.poller.interest (s.channel i).fd = none
  accepted : ∀ (call : ChannelCall) operation, call.operation (s.channel i) = some operation →
    s.poller.accepts operation (s.channel i).fd = true
  completes : ∀ call : ChannelCall, ∃ result, call.apply (s.channel i) s.poller = .ok result

/-- What every call keeps: each channel is recorded, and the descriptors are distinct. -/
structure Inv (s : PollerSystem ι) : Prop where
  recorded : ∀ i, s.poller.Recorded (s.channel i)
  distinct : ∀ i j, (s.channel i).fd = (s.channel j).fd → i = j

omit [DecidableEq ι] in
/-- The books agree on a recorded channel. -/
theorem Inv.agrees {s : PollerSystem ι} (h : s.Inv) (i : ι) : s.Agrees i := by
  have hrecorded := h.recorded i
  have haccepted (call : ChannelCall) (operation : CtlOp)
      (hop : call.operation (s.channel i) = some operation) :=
    call.accepts_recorded hrecorded hop
  have hcompletes (call : ChannelCall) :
      ∃ result, call.apply (s.channel i) s.poller = .ok result :=
    let ⟨q, c', hok, _⟩ := call.apply_recorded hrecorded
    ⟨(q, c'), hok⟩
  unfold EpollPoller.Recorded at hrecorded
  cases hi : (s.channel i).index <;> simp only [hi] at hrecorded <;>
    refine ⟨?_, ?_, ?_, ?_, haccepted, hcompletes⟩ <;>
    simp [EpollPoller.hasChannel, hi, hrecorded.1, hrecorded.2]

/-- Every call keeps every channel recorded. -/
theorem Inv.step {s s' : PollerSystem ι} {label : ι × ChannelCall} (h : s.Inv)
    (hstep : s.step label = some s') : s'.Inv := by
  obtain ⟨i, call⟩ := label
  obtain ⟨q, c', hok, hfd, -, hrecorded, hframe⟩ := call.apply_recorded (h.recorded i)
  obtain ⟨r, hr, rfl⟩ := Option.map_eq_some_iff.mp hstep
  rw [toOption_eq_some, hok] at hr
  obtain rfl := Except.ok.inj hr
  have hsame (j : ι) : (Function.update s.channel i c' j).fd = (s.channel j).fd := by
    by_cases hj : j = i
    · rw [hj, Function.update_self, hfd]
    · rw [Function.update_of_ne hj]
  refine ⟨fun j => ?_, fun j k heq => ?_⟩
  · by_cases hj : j = i
    · simpa only [hj, Function.update_self] using hrecorded
    · simp only [Function.update_of_ne hj]
      exact (h.recorded j).frame hframe fun heq => hj (h.distinct j i heq)
  · simp only [hsame] at heq
    exact h.distinct j k heq

end PollerSystem

/-- After every call on any of the channels, the books agree with the kernel on all of them. -/
theorem poller_agrees_with_kernel {ι : Type*} [DecidableEq ι] (set : ChannelSet ι)
    (calls : List (ι × ChannelCall)) :
    Everywhere PollerSystem.step (fun s => ∀ i, s.Agrees i) set.start calls := by
  refine everywhere_of_invariant (I := PollerSystem.Inv) (fun s hs => hs.agrees)
    (fun s label s' hs hstep => hs.step hstep) ?_ calls
  exact ⟨fun i => set.unknown i, fun i j heq => set.distinct heq⟩

end CcMuduo
