import CcMuduo.TimerQueue

/-!
# Cancelling from inside a pass

While `handleRead` runs the callbacks of a batch, the timers of the batch are not in `timers`, the one
collection that `cancel` searches. When the callbacks are done, `reset` puts every repeating timer of
the batch back, the cancelled ones too.
-/

namespace CcMuduo

open Foundation

namespace TimerQueue

/-- Every entry's sequence is that of the timer object at its address. -/
def Objects (sequenceAt : ℕ → ℕ) (entries : List Entry) : Prop :=
  ∀ e ∈ entries, e.2.sequence = sequenceAt e.2.address

/-- Different timers are different objects: the sequence is determined by the address. -/
def Sound (q : TimerQueue) : Prop := ∃ sequenceAt, Objects sequenceAt q.timers

/-- The timer with the sequence is in `timers`. -/
def Holds (q : TimerQueue) (sequence : ℕ) : Prop := ∃ e ∈ q.timers, e.2.sequence = sequence

variable {q : TimerQueue} {sequenceAt : ℕ → ℕ}

/-- Inserting a timer object keeps the objects apart. -/
theorem objects_insert {timer : Timer} (h : Objects sequenceAt q.timers)
    (ht : timer.sequence = sequenceAt timer.address) : Objects sequenceAt (q.insert timer).timers := by
  intro e he
  rcases mem_insert he with rfl | hold
  · exact ht
  · exact h e hold

/-- An inserted timer is in `timers`, also when the set finds it there already. -/
theorem holds_insert {timer : Timer} (h : Objects sequenceAt q.timers)
    (ht : timer.sequence = sequenceAt timer.address) : (q.insert timer).Holds timer.sequence := by
  obtain ⟨e, he, hbelow, habove⟩ := exists_mem_insertOrdered Entry.lt
    (timer.expiration, timer) q.timers (by simp [Entry.lt])
  refine ⟨e, he, ?_⟩
  have haddress : e.2.address = timer.address := by
    simp only [Entry.lt, Bool.or_eq_false_iff, decide_eq_false_iff_not, Bool.and_eq_false_iff,
      beq_eq_false_iff_ne] at hbelow habove
    omega
  rw [objects_insert h ht e he, haddress, ht]

/-- Inserting another timer takes none out. -/
theorem holds_insert_of_holds {timer : Timer} {sequence : ℕ} (h : q.Holds sequence) :
    (q.insert timer).Holds sequence := by
  obtain ⟨e, he, hseq⟩ := h
  exact ⟨e, mem_insert_of_mem he, hseq⟩

/-- One round of the loop of `reset` keeps the objects apart. -/
theorem objects_round {e : Entry} {now : ℤ} (h : Objects sequenceAt q.timers)
    (he : e.2.sequence = sequenceAt e.2.address) :
    Objects sequenceAt (if e.2.repeats then q.insert (e.2.restart now) else q).timers := by
  obtain ⟨haddress, hseq⟩ := e.2.restart_identity now
  split
  · exact objects_insert h (by rw [haddress, hseq, he])
  · exact h

/-- The loop of `reset` takes no timer out. -/
theorem holds_reinsert_of_holds {expired : List Entry} {now : ℤ} {sequence : ℕ}
    (h : q.Holds sequence) : (q.reinsert expired now).Holds sequence := by
  induction expired generalizing q with
  | nil => exact h
  | cons e rest ih =>
    rw [reinsert_cons]
    apply ih
    split
    · exact holds_insert_of_holds h
    · exact h

/-- The loop of `reset` puts every repeating timer back. -/
theorem holds_reinsert {expired : List Entry} (now : ℤ) (h : Objects sequenceAt q.timers)
    (hexpired : Objects sequenceAt expired) {e : Entry} (he : e ∈ expired)
    (hrepeats : e.2.repeats = true) : (q.reinsert expired now).Holds e.2.sequence := by
  induction expired generalizing q with
  | nil => contradiction
  | cons first rest ih =>
    obtain ⟨hfirst, hrest⟩ := List.forall_mem_cons.mp hexpired
    rw [reinsert_cons]
    rcases List.mem_cons.mp he with rfl | hmem
    · apply holds_reinsert_of_holds
      obtain ⟨haddress, hseq⟩ := e.2.restart_identity now
      rw [if_pos hrepeats, ← hseq]
      exact holds_insert h (by rw [haddress, hseq, hfirst])
    · exact ih (objects_round h hfirst) hrest hmem

/-- Whatever the callbacks cancel, what is left of `timers` is a part of it. -/
theorem objects_runTimers (expired : List Entry) (cancels : Timer → List ℕ)
    (h : Objects sequenceAt q.timers) :
    Objects sequenceAt (expired.foldl (fun q e => q.runTimer cancels e.2) q).timers := by
  have cancelled (l : List ℕ) : ∀ q : TimerQueue, Objects sequenceAt q.timers →
      Objects sequenceAt (l.foldl cancel q).timers := by
    induction l with
    | nil => exact fun _ h => h
    | cons sequence rest ih => exact fun q h => ih _ fun e he => h e (mem_of_mem_cancel he)
  induction expired generalizing q with
  | nil => exact h
  | cons e rest ih =>
    refine ih (q := q.runTimer cancels e.2) ?_
    unfold runTimer
    split
    · exact cancelled _ q h
    · exact h

/-- After a pass every repeating timer of the batch is in `timers`, whatever its callbacks
cancelled. -/
theorem holds_handleRead (hsound : q.Sound) {p : Pass} {e : Entry} (he : e ∈ q.batch p.now)
    (hrepeats : e.2.repeats = true) : (q.handleRead p).Holds e.2.sequence := by
  obtain ⟨sequenceAt, h⟩ := hsound
  have happend := q.getExpired_append p.now
  have hexpired : Objects sequenceAt (q.getExpired p.now).1 := fun x hx =>
    h x (happend ▸ List.mem_append_left _ hx)
  have hleft : Objects sequenceAt (q.getExpired p.now).2.timers := fun x hx =>
    h x (happend ▸ List.mem_append_right _ hx)
  obtain ⟨x, hx, hseq⟩ := holds_reinsert p.now
    (objects_runTimers (q.getExpired p.now).1 p.cancels hleft)
    hexpired he hrepeats
  refine ⟨x, ?_, hseq⟩
  rw [handleRead, reset_timers]
  exact hx

end TimerQueue

/-- A callback that the pass runs cancels the timer with the sequence. -/
def Pass.cancelsInBatch (p : Pass) (q : TimerQueue) (sequence : ℕ) : Prop :=
  ∃ e ∈ q.batch p.now, e.2.callback = true ∧ sequence ∈ p.cancels e.2

/-- The sequences of the callbacks that passes start, one pass after the other. -/
def startedLater (q : TimerQueue) : List Pass → List ℕ
  | [] => []
  | p :: rest => q.started p.now ++ startedLater (q.handleRead p) rest

/-- Cancelling from inside the pass is effective: a repeating timer of the batch that a callback of the
batch cancels is not in `timers` after the pass, and no later pass runs its callback. -/
def CancelsInside (q : TimerQueue) (p : Pass) : Prop :=
  ∀ e ∈ q.batch p.now, e.2.repeats = true → p.cancelsInBatch q e.2.sequence →
    ¬ (q.handleRead p).Holds e.2.sequence ∧
      ∀ later, e.2.sequence ∉ startedLater (q.handleRead p) later

/-- Cancelling from inside a pass is effective exactly when no callback of the batch cancels a
repeating timer of the batch. -/
theorem cancelsInside_iff (q : TimerQueue) (p : Pass) (hsound : q.Sound) :
    CancelsInside q p ↔
      ∀ e ∈ q.batch p.now, e.2.repeats = true → ¬ p.cancelsInBatch q e.2.sequence := by
  refine ⟨fun h e he hrepeats hcancel => ?_, fun h e he hrepeats hcancel => ?_⟩
  · exact (h e he hrepeats hcancel).1 (TimerQueue.holds_handleRead hsound he hrepeats)
  · exact absurd hcancel (h e he hrepeats)

/-- One timer that repeats every ten ticks and is due. -/
def TimerQueue.ticking : TimerQueue := ⟨[(10, ⟨1, true, 10, 10, 1⟩)], some 10⟩

/-- The pass in which that timer cancels itself. -/
def Pass.cancelling : Pass := ⟨20, fun _ => [1]⟩

/-- The pass in which that timer cancels a sequence that no timer has. -/
def Pass.missing : Pass := ⟨20, fun _ => [2]⟩

/-- A pass whose callback cancels none of its batch. -/
theorem cancelsInside_missing :
    CancelsInside TimerQueue.ticking Pass.missing := by
  refine (cancelsInside_iff _ _ ⟨fun _ => 1, by simp [TimerQueue.Objects, TimerQueue.ticking]⟩).mpr ?_
  rintro e he - ⟨e', -, -, hcancel⟩
  have hseq : e.2.sequence = 2 := List.mem_singleton.mp hcancel
  have hbatch : ∀ e ∈ TimerQueue.ticking.batch Pass.missing.now, e.2.sequence ≠ 2 := by decide
  exact hbatch e he hseq

/-- A repeating timer that cancels itself is back in `timers` after the pass. -/
theorem cancelsInside_itself : ¬ CancelsInside TimerQueue.ticking Pass.cancelling := by
  intro h
  refine (h (10, ⟨1, true, 10, 10, 1⟩) (by decide) rfl
    ⟨(10, ⟨1, true, 10, 10, 1⟩), by decide, rfl, by decide⟩).1 ?_
  exact ⟨(30, ⟨1, true, 30, 10, 1⟩), by decide, rfl⟩

end CcMuduo
