import CcMuduo.TimerQueue.Timerfd

/-!
# How late a timer may be

A callback is never run early. How late it is depends on how promptly the loop thread does its part: an
insertion that arms the descriptor is executed within the latency of the expiration of its timer, a pass
that arms it does so within the latency of its reading, and between passes the descriptor is not left
readable for longer than the notice. Then no timer is overdue by more than the two together and the 100
microseconds that `howMuchTimeFromNow` allows at least, when it waits and when its pass reads the clock.

`restart` counts from the reading of the pass, so a repeating timer drifts by as much with every run.
-/

namespace CcMuduo

open Foundation

/-- The span of `howMuchTimeFromNow` is not negative. -/
theorem howMuchTimeFromNow_nonneg (now when_ : ℤ) : 0 ≤ (howMuchTimeFromNow now when_).nanoseconds := by
  have hparts (m : ℤ) (hm : 100 ≤ m) : 0 ≤ m.tdiv 1000000 ∧ 0 ≤ m.tmod 1000000 :=
    ⟨Int.tdiv_nonneg (by omega) (by decide), Int.tmod_nonneg 1000000 (by omega)⟩
  simp only [howMuchTimeFromNow, Timespec.nanoseconds]
  split
  · obtain ⟨hsec, hnsec⟩ := hparts 100 (Int.le_refl _)
    omega
  · obtain ⟨hsec, hnsec⟩ := hparts ((when_ - now).tdiv 1000) (by omega)
    omega

namespace Timerfd

/-- When the descriptor became readable, which is kept, or when it will. -/
def due (fd : Timerfd) (since : ℤ) : Option ℤ :=
  if fd.readable then some since else fd.armed.map Arming.deadline

/-- A descriptor that nothing is done to is due as before. -/
theorem due_again (fd : Timerfd) (since : ℤ) : fd.due ((fd.due since).getD since) = fd.due since := by
  unfold due
  split <;> rfl

/-- And so it is when time goes on. -/
theorem due_elapse (fd : Timerfd) (now since : ℤ) :
    (fd.elapse now).due ((fd.due since).getD since) = fd.due since := by
  unfold elapse
  split
  · rename_i hpast
    obtain ⟨a, harmed, -⟩ := (Option.any_eq_true _ _).mp hpast
    simp only [due, harmed, Option.map_some, if_true]
    split <;> rfl
  · exact fd.due_again since

/-- Arming the descriptor within the latency of an expiration that does not come before the one asked for
makes it due in time, and not before now. -/
theorem due_resetTimerfd {latency : ℕ} {now expiration : ℤ} {e : Entry} (since : ℤ) (notice : ℕ)
    (he : expiration ≤ e.2.expiration) (hnow : now ≤ e.2.expiration + latency) :
    ∃ t ∈ (resetTimerfd now expiration).due since,
      t ≤ e.2.expiration + latency + 100000 ∧ now ≤ t + notice := by
  obtain ⟨hzero, -, -, hspan⟩ := howMuchTimeFromNow_spec now expiration
  have hnonneg := howMuchTimeFromNow_nonneg now expiration
  refine ⟨now + (howMuchTimeFromNow now expiration).nanoseconds, ?_, by omega, by omega⟩
  rw [resetTimerfd, settime, if_neg hzero]
  rfl

end Timerfd

namespace TimerQueue

variable {q : TimerQueue} {now : ℤ}

/-- What a pass leaves does not expire before its time. -/
theorem WellFormed.le_of_mem_getExpired (h : q.WellFormed) {e : Entry}
    (he : e ∈ (q.getExpired now).2.timers) : now ≤ e.2.expiration := by
  have hwell := h.getExpired now
  have hkey := hwell.keyed e he
  have hfirst := List.head?_dropWhile_not (fun e : Entry => decide (e.1 < now)) q.timers
  cases hhead : (q.getExpired now).2.timers.head? with
  | none => simp [List.head?_eq_none_iff.mp hhead] at he
  | some first =>
    have hle := hwell.head_le hhead he
    change (q.timers.dropWhile fun e => decide (e.1 < now)).head? = some first at hhead
    rw [hhead] at hfirst
    simp only [decide_eq_false_iff_not] at hfirst
    omega

/-- The timers that a pass puts back expire behind its time, if their new expirations fit. -/
theorem le_of_mem_reinsert {expired : List Entry} (h : ∀ e ∈ q.timers, now ≤ e.2.expiration)
    (hfits : ∀ e ∈ expired, e.2.repeats = true → IsSigned 64 (now + e.2.interval)) {e : Entry}
    (he : e ∈ (q.reinsert expired now).timers) : now ≤ e.2.expiration := by
  induction expired generalizing q with
  | nil => exact h e he
  | cons first rest ih =>
    obtain ⟨hfirst, hrest⟩ := List.forall_mem_cons.mp hfits
    rw [reinsert_cons] at he
    refine ih (fun e he => ?_) hrest he
    split at he
    · rename_i hrepeats
      rcases mem_insert he with rfl | hold
      · have hinterval : 0 < first.2.interval := of_decide_eq_true hrepeats
        rw [first.2.restart_of_repeats hrepeats (hfirst hrepeats)]
        simp only
        omega
      · exact h e hold
    · exact h e he

end TimerQueue

/-- The instant by which a step that arms the descriptor is prompt: the expiration of the timer that is
inserted, or the reading of the pass that ends. -/
def TimerView.promptly {T : Type*} (v : TimerView) : TimerLabel T → Option ℤ
  | .move .call =>
    match v.waiting with
    | .insert timer :: _ => some timer.expiration
    | _ => none
  | .reset => v.batch.map Batch.now
  | _ => none

/-- A loop with its timers and the kernel's timer. While the descriptor is readable, `since` is the
instant it has been so from. -/
structure TimerfdHistory (T : Type*) where
  loop : TimerfdLoop T
  since : ℤ

namespace TimerfdHistory

variable {T : Type*}

/-- When the descriptor became readable, or when it will. -/
def due (h : TimerfdHistory T) : Option ℤ := h.loop.timerfd.due h.since

/-- The loop thread is prompt: a step that arms the descriptor does so within the latency, and between
passes time does not go on beyond the notice while the descriptor is readable. The new expirations of the
timers that a pass puts back fit the ticks of the clock. -/
def Prompt (latency notice : ℕ) (h : TimerfdHistory T) : TimerfdLabel T → Prop
  | .elapse now => h.loop.loop.batch = none → ∀ t ∈ h.due, now ≤ t + notice
  | .loop label instants => h.loop.loop.view.RestartsFit label ∧
      ∀ t ∈ h.loop.loop.view.promptly label, ∀ i ∈ instants, i ≤ t + latency

instance (latency notice : ℕ) (h : TimerfdHistory T) (label : TimerfdLabel T) :
    Decidable (h.Prompt latency notice label) :=
  match label with
  | .elapse now =>
    inferInstanceAs (Decidable (h.loop.loop.batch = none → ∀ t ∈ h.due, now ≤ t + notice))
  | .loop label instants => inferInstanceAs (Decidable (h.loop.loop.view.RestartsFit label ∧
      ∀ t ∈ h.loop.loop.view.promptly label, ∀ i ∈ instants, i ≤ t + latency))

/-- No timer that waits is overdue by more than the bound, and none of a pass is early or was overdue by
more when the pass read the clock. -/
structure Punctual (bound : ℕ) (h : TimerfdHistory T) : Prop where
  waiting : h.loop.loop.batch = none →
    ∀ e ∈ h.loop.loop.queue.timers, h.loop.clock ≤ e.2.expiration + bound
  passing : ∀ b ∈ h.loop.loop.batch, ∀ e ∈ b.expired,
    e.2.expiration < b.now ∧ b.now ≤ e.2.expiration + bound

/-- Everything behind its constructor. -/
def constructed : TimerfdHistory T := ⟨.constructed, 0⟩

/-- One step, where `owner` is the loop's own thread. -/
def step [DecidableEq T] (owner : T) (h : TimerfdHistory T) (label : TimerfdLabel T) :
    Option (TimerfdHistory T) :=
  (h.loop.step owner label).map fun loop => ⟨loop, h.due.getD h.since⟩

/-- The timers are on time: outside a pass the descriptor is due in time for each of them and was not
left readable for long, and a pass has taken out exactly those that expired before it, none of them late. -/
structure OnTime (latency notice : ℕ) (v : TimerView) (due : Option ℤ) (clock : ℤ) : Prop where
  wellFormed : v.queue.WellFormed
  due : v.batch = none → ∀ e ∈ v.queue.timers,
    ∃ t ∈ due, t ≤ e.2.expiration + latency + 100000 ∧ clock ≤ t + notice
  left : ∀ b ∈ v.batch, ∀ e ∈ v.queue.timers, b.now ≤ e.2.expiration
  passing : ∀ b ∈ v.batch, ∀ e ∈ b.expired,
    e.2.expiration < b.now ∧ b.now ≤ e.2.expiration + (latency + notice + 100000 : ℕ)

namespace OnTime

variable {latency notice : ℕ} {v v' : TimerView} {fd : Timerfd} {since clock : ℤ}

/-- What a step does that neither arms nor reads the descriptor, and puts no timer into `timers`. -/
theorem of_subset (h : OnTime latency notice v (fd.due since) clock) {queue : TimerQueue}
    (hwell : queue.WellFormed) (hsub : queue.timers ⊆ v.queue.timers) {batch : Option Batch}
    (hnone : batch = none → v.batch = none)
    (hsome : ∀ b ∈ batch, ∃ b' ∈ v.batch, b.now = b'.now ∧ b.expired = b'.expired)
    (waiting : List TimerFunctor) (used : List ℕ) :
    OnTime latency notice ⟨queue, batch, waiting, used⟩ (fd.due ((fd.due since).getD since)) clock := by
  rw [fd.due_again since]
  refine ⟨hwell, fun hbatch e he => h.due (hnone hbatch) e (hsub he), fun b hb e he => ?_,
    fun b hb e he => ?_⟩
  · obtain ⟨b', hb', hnow, -⟩ := hsome b hb
    exact hnow ▸ h.left b' hb' e (hsub he)
  · obtain ⟨b', hb', hnow, hexpired⟩ := hsome b hb
    exact hnow ▸ h.passing b' hb' e (hexpired ▸ he)

/-- An insertion that arms the descriptor does so for the earliest timer. -/
theorem insert {queue : TimerQueue} {timer : Timer} {rest : List TimerFunctor} {used : List ℕ}
    {instants : List ℤ}
    (h : OnTime latency notice ⟨queue, none, .insert timer :: rest, used⟩ (fd.due since) clock)
    (hlength : instants.length = (queue.insertArms timer).length)
    (hprompt : ∀ i ∈ instants, i ≤ timer.expiration + latency) :
    OnTime latency notice ⟨queue.insert timer, none, rest, used⟩
      ((fd.rearm (instants.zip (queue.insertArms timer))).due ((fd.due since).getD since))
      (instants.getLast?.getD clock) := by
  refine ⟨h.wellFormed.insert timer, fun _ e he => ?_, fun _ hb => by simp at hb,
    fun _ hb => by simp at hb⟩
  have hold := TimerQueue.mem_insert he
  unfold TimerQueue.insertArms at hlength ⊢
  split at hlength
  · rename_i hfirst
    rw [if_pos hfirst]
    obtain ⟨now, rfl⟩ := List.length_eq_one_iff.mp hlength
    have hnow := hprompt now (List.mem_singleton_self now)
    have hle : timer.expiration ≤ e.2.expiration := by
      rcases hold with rfl | hold
      · exact Int.le_refl _
      · cases hhead : queue.timers.head? with
        | none => simp [List.head?_eq_none_iff.mp hhead] at hold
        | some first =>
          have hfirst_le := h.wellFormed.head_le hhead hold
          have hkey := h.wellFormed.keyed e hold
          simp only [hhead, Option.all_some, decide_eq_true_eq] at hfirst
          omega
    exact Timerfd.due_resetTimerfd _ notice hle (by omega)
  · rename_i hlater
    obtain rfl := List.length_eq_zero_iff.mp hlength
    rw [if_neg hlater, List.zip_nil_right]
    change ∃ t ∈ fd.due ((fd.due since).getD since), _
    rw [fd.due_again since]
    rcases hold with rfl | hold
    · cases hhead : queue.timers.head? with
      | none => simp [hhead] at hlater
      | some first =>
        have hmem : first ∈ queue.timers := List.mem_of_mem_head? hhead
        obtain ⟨t, ht, hdue, hclock⟩ := h.due rfl first hmem
        have hkey := h.wellFormed.keyed first hmem
        simp only [hhead, Option.all_some, decide_eq_true_eq] at hlater
        exact ⟨t, ht, by simp only; omega, hclock⟩
    · exact h.due rfl e hold

/-- A pass takes out what expires before its reading, which is late by no more than the clock. -/
theorem expire {queue : TimerQueue} {waiting : List TimerFunctor} {used : List ℕ} {now : ℤ}
    {due due' : Option ℤ} (h : OnTime latency notice ⟨queue, none, waiting, used⟩ due clock)
    (hnow : now ≤ clock) :
    OnTime latency notice ⟨(queue.getExpired now).2,
        some ⟨(queue.getExpired now).1, (queue.getExpired now).1, now, false⟩, waiting, used⟩
      due' clock := by
  refine ⟨h.wellFormed.getExpired now, fun hbatch => by simp at hbatch, fun b hb e he => ?_,
    fun b hb e he => ?_⟩
  · obtain rfl := Option.some.inj hb
    exact h.wellFormed.le_of_mem_getExpired he
  · obtain rfl := Option.some.inj hb
    rw [h.wellFormed.getExpired_fst now, List.mem_filter, decide_eq_true_eq] at he
    obtain ⟨t, -, hdue, hclock⟩ := h.due rfl e he.1
    have hlate : now ≤ e.2.expiration + (latency + notice + 100000 : ℕ) := by omega
    exact ⟨he.2, hlate⟩

/-- The end of a pass arms the descriptor for the earliest of the timers that are left and put back. -/
theorem reset {queue : TimerQueue} {waiting : List TimerFunctor} {used : List ℕ} {expired : List Entry}
    {now : ℤ} {called : Bool} {instants : List ℤ}
    (h : OnTime latency notice ⟨queue, some ⟨expired, [], now, called⟩, waiting, used⟩ (fd.due since)
      clock)
    (hlength : instants.length = (queue.resetArms expired now).length)
    (hfits : ∀ e ∈ expired, e.2.repeats = true → IsSigned 64 (now + e.2.interval))
    (hprompt : ∀ i ∈ instants, i ≤ now + latency) :
    OnTime latency notice ⟨queue.reset expired now, none, waiting, used⟩
      ((fd.rearm (instants.zip (queue.resetArms expired now))).due ((fd.due since).getD since))
      (instants.getLast?.getD clock) := by
  refine ⟨h.wellFormed.reset expired now, fun _ e he => ?_, fun _ hb => by simp at hb,
    fun _ hb => by simp at hb⟩
  rw [TimerQueue.reset_timers] at he
  have hnow : now ≤ e.2.expiration := TimerQueue.le_of_mem_reinsert (h.left _ rfl) hfits he
  have hwell := h.wellFormed.reinsert expired now
  unfold TimerQueue.resetArms at hlength ⊢
  cases hhead : (queue.reinsert expired now).timers.head? with
  | none => simp [List.head?_eq_none_iff.mp hhead] at he
  | some first =>
    simp only [hhead, Option.map_some, Option.toList_some] at hlength ⊢
    obtain ⟨front, last, rfl⟩ : ∃ front last, instants = front ++ [last] :=
      ⟨_, _, (List.dropLast_append_getLast (by rintro rfl; simp at hlength)).symm⟩
    have hfront : front.length = (queue.reinsertArms now expired).length := by simpa using hlength
    have hlast := hprompt last (by simp)
    have hle := hwell.head_le hhead he
    have hkey := hwell.keyed e he
    rw [List.zip_append hfront, List.zip_cons_cons, List.zip_nil_right, Timerfd.rearm_append_singleton,
      List.getLast?_concat]
    exact Timerfd.due_resetTimerfd _ notice (by omega) (by omega)

/-- Every step of the loop keeps the timers on time, when one that arms the descriptor is prompt. -/
theorem step {T : Type*} [DecidableEq T] {label : TimerLabel T} {instants : List ℤ}
    (h : OnTime latency notice v (fd.due since) clock) (hs : v.Step label v')
    (hlength : instants.length = (v.arms label).length)
    (hreads : ∀ now, label = .expire now → now ≤ clock) (hfits : v.RestartsFit label)
    (hprompt : ∀ t ∈ v.promptly label, ∀ i ∈ instants, i ≤ t + latency) :
    OnTime latency notice v'
      (((TimerfdLoop.beginPass fd label).rearm (instants.zip (v.arms label))).due
        ((fd.due since).getD since))
      (instants.getLast?.getD clock) := by
  have still (harms : v.arms label = []) (hfd : TimerfdLoop.beginPass fd label = fd)
      (hv : OnTime latency notice v' (fd.due ((fd.due since).getD since)) clock) :
      OnTime latency notice v'
        (((TimerfdLoop.beginPass fd label).rearm (instants.zip (v.arms label))).due
          ((fd.due since).getD since))
        (instants.getLast?.getD clock) := by
    rw [harms] at hlength ⊢
    obtain rfl := List.length_eq_zero_iff.mp hlength
    rw [hfd, List.zip_nil_right]
    exact hv
  cases hs with
  | quiet hquiet =>
    have hsame := h.of_subset h.wellFormed (List.Subset.refl _) id (fun b hb => ⟨b, hb, rfl, rfl⟩)
      v.waiting v.used
    cases label with
    | move m => cases m <;> first | exact still rfl rfl hsame | contradiction
    | quit | queueTest | queueWake | quitTest | quitWake => exact still rfl rfl hsame
    | queueInLoop | addTimer | cancel | expire | runNext | reset => contradiction
  | @call queue functor rest used =>
    cases functor with
    | insert timer => exact h.insert hlength (hprompt _ rfl)
    | cancel sequence =>
      exact still rfl rfl (h.of_subset (h.wellFormed.cancel sequence)
        (fun _ he => TimerQueue.mem_of_mem_cancel he) id (fun _ hb => by simp at hb) _ _)
    | user =>
      exact still rfl rfl
        (h.of_subset h.wellFormed (List.Subset.refl _) id (fun _ hb => by simp at hb) _ _)
  | queueInLoop | addTimer | queueCancel =>
    exact still rfl rfl
      (h.of_subset h.wellFormed (List.Subset.refl _) id (fun b hb => ⟨b, hb, rfl, rfl⟩) _ _)
  | cancel =>
    exact still rfl rfl (h.of_subset (h.wellFormed.cancel _)
      (fun _ he => TimerQueue.mem_of_mem_cancel he) id (fun b hb => ⟨b, hb, rfl, rfl⟩) _ _)
  | @expire queue waiting used now =>
    obtain rfl := List.length_eq_zero_iff.mp hlength
    exact h.expire (hreads now rfl)
  | runNext =>
    refine still rfl rfl (h.of_subset h.wellFormed (List.Subset.refl _) (fun hnone => by simp at hnone)
      (fun b hb => ?_) _ _)
    obtain rfl := Option.some.inj hb
    exact ⟨_, rfl, rfl, rfl⟩
  | reset => exact h.reset hlength (hfits _ rfl) (hprompt _ rfl)

/-- Time that does not go on beyond the notice keeps the timers on time. -/
theorem elapse (h : OnTime latency notice v (fd.due since) clock) {now : ℤ}
    (hprompt : v.batch = none → ∀ t ∈ fd.due since, now ≤ t + notice) :
    OnTime latency notice v ((fd.elapse now).due ((fd.due since).getD since)) now := by
  rw [fd.due_elapse]
  refine ⟨h.wellFormed, fun hbatch e he => ?_, h.left, h.passing⟩
  obtain ⟨t, ht, hdue, -⟩ := h.due hbatch e he
  exact ⟨t, ht, hdue, hprompt hbatch t ht⟩

/-- Timers that are on time are punctual. -/
theorem punctual {T : Type*} {h : TimerfdHistory T}
    (hinv : OnTime latency notice h.loop.loop.view h.due h.loop.clock) :
    h.Punctual (latency + notice + 100000) := by
  refine ⟨fun hbatch e he => ?_, hinv.passing⟩
  obtain ⟨t, -, hdue, hclock⟩ := hinv.due hbatch e he
  omega

end OnTime

end TimerfdHistory

end CcMuduo
