import CcMuduo.EpollPoller.Bookkeeping

/-!
# Disabling a channel

A channel without events should not be in the kernel's interest set, and disabling one that is not
there should change nothing. `updateChannel` chooses its branch by the index before it looks at the
events, so a disabling call that finds the channel `kNew` or `kDeleted` adds it to the kernel set.
The runs in which that never happens are exactly the ones that do what they should.
-/

namespace CcMuduo

open Foundation

namespace ChannelCall

/-- The calls that take interest away. -/
def disables : ChannelCall → Bool
  | .disableReading | .disableWriting | .disableAll => true
  | .enableReading | .enableWriting | .remove => false

/-- An enabling call leaves an event. -/
theorem events_enables {call : ChannelCall} (c : Channel) (hcall : call.disables = false)
    (hremove : call ≠ .remove) : call.events c ≠ kNoneEvent := by
  have hor (mask : Mask) (hmask : mask ≠ 0) : c.events ||| mask ≠ kNoneEvent := by
    intro h
    exact hmask (BitVec.or_eq_zero_iff.mp h).2
  cases call with
  | enableReading => exact hor kReadEvent (by decide)
  | enableWriting => exact hor kWriteEvent (by decide)
  | remove => contradiction
  | disableReading | disableWriting | disableAll => contradiction

end ChannelCall

namespace PollerSystem

variable {ι : Type*} [DecidableEq ι]

/-- What a call makes of its channel: the events it leaves, and the index the poller gives it. -/
theorem Inv.step_channel {s s' : PollerSystem ι} {i : ι} {call : ChannelCall} (h : s.Inv)
    (hstep : s.step (i, call) = some s') :
    (∀ j, j ≠ i → s'.channel j = s.channel j) ∧ (s'.channel i).events = call.events (s.channel i) ∧
      (s'.channel i).index = (if call = .remove then .kNew
        else if (s.channel i).index = .kAdded ∧ call.events (s.channel i) = kNoneEvent then .kDeleted
        else .kAdded) := by
  obtain ⟨r, hr, rfl⟩ := Option.map_eq_some_iff.mp hstep
  rw [toOption_eq_some] at hr
  refine ⟨fun j hj => Function.update_of_ne hj _ _, ?_⟩
  simp only [Function.update_self]
  by_cases hremove : call = .remove
  · subst hremove
    obtain ⟨q, hok, -⟩ := (h.recorded i).tracks.removeChannel
    obtain rfl := Except.ok.inj (hr.symm.trans hok)
    exact ⟨rfl, rfl⟩
  · have happly : call.apply (s.channel i) s.poller =
        s.poller.updateChannel { s.channel i with events := call.events (s.channel i) } := by
      cases call with
      | remove => contradiction
      | enableReading | disableReading | enableWriting | disableWriting | disableAll => rfl
    obtain ⟨q, hok, -⟩ := ((h.recorded i).tracks_events (call.events (s.channel i))).updateChannel
    obtain rfl := Except.ok.inj (hr.symm.trans (happly.trans hok))
    refine ⟨rfl, ?_⟩
    rw [if_neg hremove]
    simp only [Channel.isNoneEvent, beq_iff_eq]

/-- A channel without events is not in the kernel's interest set. -/
def EmptyOutside (s : PollerSystem ι) : Prop :=
  ∀ i, (s.channel i).isNoneEvent = true → s.poller.interest (s.channel i).fd = none

/-- Disabling a channel that is not in the kernel's interest set, or that has no events any more,
changes neither the poller's map, nor the kernel set, nor the channel's index. -/
def DisablesQuietly (s : PollerSystem ι) (label : ι × ChannelCall) : Prop :=
  label.2.disables = true →
    (s.channel label.1).index ≠ .kAdded ∨ (s.channel label.1).isNoneEvent = true →
    ∃ s', s.step label = some s' ∧ s'.poller = s.poller ∧
      (s'.channel label.1).index = (s.channel label.1).index

/-- A disabling call finds its channel `kAdded`. -/
def FindsAdded (s : PollerSystem ι) (label : ι × ChannelCall) : Prop :=
  label.2.disables = true → (s.channel label.1).index = .kAdded

/-- A call that leaves its channel without events finds it `kAdded`. -/
def EmptiesAdded (s : PollerSystem ι) (label : ι × ChannelCall) : Prop :=
  label.2.disables = true → label.2.events (s.channel label.1) = kNoneEvent →
    (s.channel label.1).index = .kAdded

/-- What calls that empty only added channels keep: an added channel has an event. -/
structure Busy (s : PollerSystem ι) : Prop extends s.Inv where
  busy : ∀ i, (s.channel i).index = .kAdded → (s.channel i).events ≠ kNoneEvent

omit [DecidableEq ι] in
/-- A channel without events is then outside the kernel's set. -/
theorem Busy.emptyOutside {s : PollerSystem ι} (h : s.Busy) : s.EmptyOutside := by
  intro i hnone
  have hindex : (s.channel i).index ≠ .kAdded := by
    intro hadded
    exact h.busy i hadded (beq_iff_eq.mp hnone)
  exact (h.recorded i).tracks.unregistered hindex

/-- A call keeps every added channel busy, unless it empties one that is not added. -/
theorem Busy.step {s s' : PollerSystem ι} {label : ι × ChannelCall} (h : s.Busy)
    (hempties : s.EmptiesAdded label) (hstep : s.step label = some s') : s'.Busy := by
  refine ⟨h.toInv.step hstep, fun j hadded => ?_⟩
  obtain ⟨i, call⟩ := label
  obtain ⟨hother, hevents, hindex⟩ := h.toInv.step_channel hstep
  by_cases hj : j = i
  · subst hj
    rw [hevents]
    rw [hindex] at hadded
    intro hnone
    by_cases hremove : call = .remove
    · rw [if_pos hremove] at hadded
      contradiction
    · rw [if_neg hremove] at hadded
      cases hdisables : call.disables with
      | false => exact ChannelCall.events_enables _ hdisables hremove hnone
      | true =>
        rw [if_pos ⟨hempties hdisables hnone, hnone⟩] at hadded
        contradiction
  · rw [hother j hj] at hadded ⊢
    exact h.busy j hadded

/-- A call that empties a channel which is not added puts it into the kernel's set. -/
theorem Inv.step_adds_empty {s s' : PollerSystem ι} {label : ι × ChannelCall} (h : s.Inv)
    (hempties : ¬ s.EmptiesAdded label) (hstep : s.step label = some s') : ¬ s'.EmptyOutside := by
  obtain ⟨i, call⟩ := label
  simp only [EmptiesAdded, Classical.not_imp] at hempties
  obtain ⟨hdisables, hnone, hindex⟩ := hempties
  obtain ⟨-, hevents, hafter⟩ := h.step_channel hstep
  have hremove : call ≠ .remove := by
    intro hremove
    rw [hremove] at hdisables
    contradiction
  rw [if_neg hremove, if_neg (fun hboth => hindex hboth.1)] at hafter
  have hrecorded := (h.step hstep).recorded i
  simp only [EpollPoller.Recorded, hafter] at hrecorded
  intro houtside
  have hout := houtside i (by rw [Channel.isNoneEvent, hevents, hnone, beq_self_eq_true])
  rw [hrecorded.2] at hout
  contradiction

/-- Disabling a channel that is not added adds it, which is not quiet. -/
theorem Inv.findsAdded {s s' : PollerSystem ι} {label : ι × ChannelCall} (h : s.Inv)
    (hquiet : s.DisablesQuietly label) (hstep : s.step label = some s') : s.FindsAdded label := by
  obtain ⟨i, call⟩ := label
  intro hdisables
  by_contra hindex
  obtain ⟨t, ht, -, hsame⟩ := hquiet hdisables (.inl hindex)
  obtain rfl := Option.some.inj (hstep.symm.trans ht)
  obtain ⟨-, -, hafter⟩ := h.step_channel hstep
  have hremove : call ≠ .remove := by
    intro hremove
    rw [hremove] at hdisables
    contradiction
  rw [if_neg hremove, if_neg (fun hboth => hindex hboth.1)] at hafter
  exact hindex (hsame.symm.trans hafter)

end PollerSystem

/-- No channel without events is ever in the kernel's set, exactly when no call takes the last event
from a channel that is not added. -/
theorem emptyOutside_iff {ι : Type*} [DecidableEq ι] (set : ChannelSet ι)
    (calls : List (ι × ChannelCall)) :
    Everywhere PollerSystem.step PollerSystem.EmptyOutside set.start calls ↔
      Along PollerSystem.step PollerSystem.EmptiesAdded set.start calls := by
  refine everywhere_iff_along (I := PollerSystem.Busy) (fun s h => h.emptyOutside)
    (fun s label s' h hc hstep => h.step hc hstep)
    (fun s label s' h hc hstep => h.toInv.step_adds_empty hc hstep) calls ?_
  exact ⟨⟨fun i => set.unknown i, fun i j heq => set.distinct heq⟩, fun i h => by contradiction⟩

/-- A run keeps channels without events out of the kernel's set, and disables what is not in it
without effect, exactly when every disabling call finds its channel `kAdded`. -/
theorem disabling_quiet_iff {ι : Type*} [DecidableEq ι] (set : ChannelSet ι)
    (calls : List (ι × ChannelCall)) :
    Everywhere PollerSystem.step PollerSystem.EmptyOutside set.start calls ∧
        Along PollerSystem.step PollerSystem.DisablesQuietly set.start calls ↔
      Along PollerSystem.step PollerSystem.FindsAdded set.start calls := by
  have hstart : set.start.Busy :=
    ⟨⟨fun i => set.unknown i, fun i j heq => set.distinct heq⟩, fun i h => by contradiction⟩
  constructor
  · intro h
    exact along_of_along (I := PollerSystem.Inv) (fun s label s' hs _ hstep => hs.step hstep)
      (fun s label s' hs hquiet hstep => hs.findsAdded hquiet hstep) hstart.toInv h.2
  · intro h
    have hkeep (s : PollerSystem ι) (label : ι × ChannelCall) (s' : PollerSystem ι) (hs : s.Busy)
        (hc : s.FindsAdded label) (hstep : s.step label = some s') : s'.Busy :=
      hs.step (fun hdisables _ => hc hdisables) hstep
    refine ⟨everywhere_of_along (I := PollerSystem.Busy) (fun s hs => hs.emptyOutside) hkeep hstart h,
      along_of_along (I := PollerSystem.Busy) hkeep ?_ hstart h⟩
    intro s label s' hs hc _ hdisables hcase
    -- an added channel has an event, so the quiet case does not arise
    rcases hcase with hindex | hnone
    · exact absurd (hc hdisables) hindex
    · exact absurd (beq_iff_eq.mp hnone) (hs.busy label.1 (hc hdisables))

/-- A reading channel that is disabled twice is back in the kernel's set, without events. -/
theorem disableAll_twice_registers :
    ¬ (Everywhere PollerSystem.step PollerSystem.EmptyOutside
        (ChannelSet.start ⟨fun _ : Unit => 1, fun _ => 7, .empty, fun _ _ _ => rfl, fun _ => ⟨rfl, rfl⟩⟩)
        [((), .enableReading), ((), .disableAll), ((), .disableAll)] ∧
      Along PollerSystem.step PollerSystem.DisablesQuietly
        (ChannelSet.start ⟨fun _ : Unit => 1, fun _ => 7, .empty, fun _ _ _ => rfl, fun _ => ⟨rfl, rfl⟩⟩)
        [((), .enableReading), ((), .disableAll), ((), .disableAll)]) := by
  intro h
  have hlast := h.1.2.2.2 () rfl
  exact absurd hlast (by decide)

end CcMuduo
