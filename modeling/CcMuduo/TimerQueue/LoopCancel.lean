import CcMuduo.TimerQueue.Step

/-!
# Cancelling on the loop

From a foreign thread the cancellation waits behind the insertion. On the loop thread it can run in
front of it: it finds nothing, and the timer enters `timers` afterwards.
-/

namespace CcMuduo

open Foundation

namespace TimerLoop

variable {T : Type*} [DecidableEq T]

variable (owner : T) (s : TimerLoop T)

/-- A timer cancelled outside a pass is not in `timers`, and its callback is never started again. -/
def CancelsForGood : Prop :=
  (∀ sequence ∈ s.cancelled, TimerQueue.copies sequence s.queue.timers = 0) ∧ s.late = []

instance : DecidablePred (CancelsForGood (T := T)) := fun s =>
  inferInstanceAs (Decidable ((∀ sequence ∈ s.cancelled,
    TimerQueue.copies sequence s.queue.timers = 0) ∧ s.late = []))

/-- The loop thread, outside a pass, cancels no timer whose insertion still waits. -/
def cancelsInserted (owner : T) (s : TimerLoop T) : TimerLabel T → Prop
  | .cancel t sequence => t = owner → s.batch = none →
      ∀ functor ∈ s.waiting, functor.inserts sequence = false
  | _ => True

instance (label : TimerLabel T) : Decidable (cancelsInserted owner s label) :=
  match label with
  | .cancel t sequence => inferInstanceAs (Decidable (t = owner → s.batch = none →
      ∀ functor ∈ s.waiting, functor.inserts sequence = false))
  | .move _ | .queueInLoop _ | .addTimer _ _ | .quit _ | .queueTest _ | .queueWake _
  | .quitTest _ | .quitWake _ | .expire _ | .runNext | .reset => inferInstanceAs (Decidable True)

omit [DecidableEq T] in
/-- How often the timer with the sequence is on its way into `timers`, out of it during a pass, or in
it. -/
def total (sequence : ℕ) : ℕ :=
  s.waiting.countP (TimerFunctor.inserts sequence) +
    (s.batch.elim 0 fun b => TimerQueue.copies sequence b.expired) +
    TimerQueue.copies sequence s.queue.timers

/-- No insertion waits behind a cancellation of the same timer. -/
def InOrder (functors : List TimerFunctor) : Prop :=
  functors.Pairwise fun first second =>
    ∀ sequence, first = .cancel sequence → second.inserts sequence = false

/-- What every step keeps while the loop thread cancels no timer whose insertion still waits: a timer
is in one place at most, cancelled timers are in none, and cancellations wait behind insertions. -/
structure Inv (s : TimerLoop T) : Prop where
  single : ∀ sequence, s.total sequence ≤ 1
  fresh : ∀ sequence, sequence ∉ s.used → s.total sequence = 0
  inOrder : InOrder s.waiting
  cancels_used : ∀ sequence, .cancel sequence ∈ s.waiting → sequence ∈ s.used
  gone : ∀ sequence ∈ s.cancelled, s.total sequence = 0
  cancelled_used : ∀ sequence ∈ s.cancelled, sequence ∈ s.used
  rest : ∀ b, s.batch = some b → b.rest ⊆ b.expired
  late : s.late = []

section

variable {owner} {s} {s' : TimerLoop T}

omit [DecidableEq T] in
/-- A step that makes no copy of a timer, and queues and cancels nothing, keeps the invariant. -/
theorem Inv.of_le (h : s.Inv) (htotal : ∀ sequence, s'.total sequence ≤ s.total sequence)
    (hwaiting : s'.waiting.Sublist s.waiting) (hused : s'.used = s.used)
    (hcancelled : s'.cancelled = s.cancelled)
    (hrest : ∀ b, s'.batch = some b → b.rest ⊆ b.expired) (hlate : s'.late = []) : s'.Inv where
  single sequence := (htotal sequence).trans (h.single sequence)
  fresh sequence hfresh :=
    Nat.eq_zero_of_le_zero ((htotal sequence).trans_eq (h.fresh sequence (hused ▸ hfresh)))
  inOrder := h.inOrder.sublist hwaiting
  cancels_used sequence hmem := hused ▸ h.cancels_used sequence (hwaiting.subset hmem)
  gone sequence hmem :=
    Nat.eq_zero_of_le_zero ((htotal sequence).trans_eq (h.gone sequence (hcancelled ▸ hmem)))
  cancelled_used sequence hmem := hused ▸ h.cancelled_used sequence (hcancelled ▸ hmem)
  rest := hrest
  late := hlate

omit [DecidableEq T] in
/-- Executing a cancellation whose insertion does not wait any more keeps the invariant. -/
theorem Inv.cancelInLoop (h : s.Inv) {sequence : ℕ} (hused : sequence ∈ s.used)
    (hinserted : s.batch = none → ∀ functor ∈ s.waiting, functor.inserts sequence = false) :
    (s.cancelInLoop sequence).Inv := by
  have htotal : ∀ sequence', (s.cancelInLoop sequence).total sequence' ≤ s.total sequence' :=
    fun sequence' => Nat.add_le_add_left (s.queue.copies_cancel_le sequence sequence') _
  cases hbatch : s.batch with
  | some b =>
    refine h.of_le htotal (List.Sublist.refl _) rfl ?_ h.rest h.late
    simp [TimerLoop.cancelInLoop, hbatch]
  | none =>
    have hcancelled : (s.cancelInLoop sequence).cancelled = sequence :: s.cancelled := by
      simp [TimerLoop.cancelInLoop, hbatch]
    have hnone : (s.cancelInLoop sequence).total sequence = 0 := by
      have hwaiting : s.waiting.countP (TimerFunctor.inserts sequence) = 0 := by
        rw [List.countP_eq_zero]
        intro functor hmem
        simp [hinserted hbatch functor hmem]
      have hsingle := h.single sequence
      unfold total at hsingle ⊢
      rw [show (s.cancelInLoop sequence).waiting = s.waiting from rfl,
        show (s.cancelInLoop sequence).batch = s.batch from rfl, hwaiting, hbatch]
      have hself := s.queue.copies_cancel_self sequence (by omega)
      simpa [TimerLoop.cancelInLoop] using hself
    refine ⟨fun q => (htotal q).trans (h.single q), fun q hq => ?_, h.inOrder, h.cancels_used,
      fun q hq => ?_, fun q hq => ?_, h.rest, h.late⟩
    · exact Nat.eq_zero_of_le_zero ((htotal q).trans_eq (h.fresh q hq))
    · rw [hcancelled] at hq
      rcases List.mem_cons.mp hq with rfl | hq
      · exact hnone
      · exact Nat.eq_zero_of_le_zero ((htotal q).trans_eq (h.gone q hq))
    · rw [hcancelled] at hq
      rcases List.mem_cons.mp hq with rfl | hq
      · exact hused
      · exact h.cancelled_used q hq

omit [DecidableEq T] in
/-- Queueing a functor that is no insertion keeps the invariant. -/
theorem Inv.enqueue (h : s.Inv) {sys : LoopSystem T TimerFunctor} {functor : TimerFunctor}
    (hwaiting : waiting { s with sys := sys } = s.waiting ++ [functor])
    (hinserts : ∀ sequence, functor.inserts sequence = false)
    (hcancel : ∀ sequence, functor = .cancel sequence → sequence ∈ s.used) :
    Inv { s with sys := sys } := by
  have htotal : ∀ sequence, total { s with sys := sys } sequence = s.total sequence := by
    intro sequence
    unfold total
    rw [hwaiting]
    simp [hinserts]
  refine ⟨fun q => (htotal q).trans_le (h.single q), fun q hq => (htotal q).trans (h.fresh q hq), ?_,
    fun q hq => ?_, fun q hq => (htotal q).trans (h.gone q hq), h.cancelled_used, h.rest, h.late⟩
  · rw [hwaiting]
    refine List.pairwise_append.mpr ⟨h.inOrder, List.pairwise_singleton _ _, ?_⟩
    intro first _ second hsecond sequence _
    rw [List.mem_singleton.mp hsecond]
    exact hinserts sequence
  · rw [hwaiting, List.mem_append, List.mem_singleton] at hq
    exact hq.elim (h.cancels_used q) fun heq => hcancel q heq.symm

omit [DecidableEq T] in
/-- Queueing the insertion of a new timer keeps the invariant. -/
theorem Inv.addTimer (h : s.Inv) {sys : LoopSystem T TimerFunctor} {timer : Timer}
    (hwaiting : waiting { s with sys := sys } = s.waiting ++ [.insert timer])
    (hfresh : timer.sequence ∉ s.used) :
    Inv { s with sys := sys, used := timer.sequence :: s.used } := by
  have htotal : ∀ sequence, total { s with sys := sys, used := timer.sequence :: s.used } sequence =
      s.total sequence + if timer.sequence = sequence then 1 else 0 := by
    intro sequence
    unfold total
    rw [show waiting { s with sys := sys, used := timer.sequence :: s.used } =
      s.waiting ++ [.insert timer] from hwaiting, List.countP_append, List.countP_singleton]
    simp only [TimerFunctor.inserts, beq_iff_eq]
    omega
  refine ⟨fun q => ?_, fun q hq => ?_, ?_, fun q hq => ?_, fun q hq => ?_,
    fun q hq => List.mem_cons_of_mem _ (h.cancelled_used q hq), h.rest, h.late⟩
  · rw [htotal]
    by_cases heq : timer.sequence = q
    · rw [← heq, h.fresh _ hfresh, if_pos rfl]
    · rw [if_neg heq]
      exact h.single q
  · simp only [List.mem_cons, not_or] at hq
    obtain ⟨hne, hold⟩ := hq
    rw [htotal, h.fresh q hold, if_neg (Ne.symm hne)]
  · change InOrder (waiting { s with sys := sys })
    rw [hwaiting]
    refine List.pairwise_append.mpr ⟨h.inOrder, List.pairwise_singleton _ _, ?_⟩
    rintro first hfirst second hsecond sequence rfl
    rw [List.mem_singleton.mp hsecond]
    simp only [TimerFunctor.inserts, beq_eq_false_iff_ne]
    rintro rfl
    exact hfresh (h.cancels_used _ hfirst)
  · change .cancel q ∈ waiting { s with sys := sys } at hq
    rw [hwaiting, List.mem_append, List.mem_singleton] at hq
    exact List.mem_cons_of_mem _ (h.cancels_used q (hq.resolve_right (by simp)))
  · rw [htotal, h.gone q hq, if_neg]
    rintro rfl
    exact hfresh (h.cancelled_used _ hq)

omit [DecidableEq T] in
/-- A step that touches no timer keeps the invariant. -/
theorem Inv.of_waiting (h : s.Inv) {sys : LoopSystem T TimerFunctor}
    (hwaiting : waiting { s with sys := sys } = s.waiting) : Inv { s with sys := sys } := by
  refine h.of_le (fun q => ?_) (by rw [hwaiting]) rfl rfl h.rest h.late
  unfold total
  rw [hwaiting]

omit [DecidableEq T] in
/-- Calling the first of the waiting functors keeps the invariant. -/
theorem Inv.call (h : s.Inv) {sys : LoopSystem T TimerFunctor} {functor : TimerFunctor}
    (hwaiting : s.waiting = functor :: waiting { s with sys := sys }) :
    (execute { s with sys := sys } functor).Inv := by
  have hinOrder := h.inOrder
  rw [hwaiting] at hinOrder
  obtain ⟨hfirst, -⟩ := List.pairwise_cons.mp hinOrder
  have htail : (waiting { s with sys := sys }).Sublist s.waiting := by
    rw [hwaiting]
    exact List.sublist_cons_self _ _
  -- the state in which the functor is called
  have hcalled : Inv { s with sys := sys } :=
    h.of_le (fun q => Nat.add_le_add_right (Nat.add_le_add_right htail.countP_le _) _) htail rfl rfl
      h.rest h.late
  cases functor with
  | insert timer =>
    refine h.of_le (fun q => ?_) htail rfl rfl h.rest h.late
    have hinsert := s.queue.copies_insert_le timer q
    unfold total
    rw [hwaiting, List.countP_cons]
    simp only [execute, waiting, TimerFunctor.inserts, beq_iff_eq]
    omega
  | cancel sequence =>
    refine hcalled.cancelInLoop (h.cancels_used sequence (hwaiting ▸ List.mem_cons_self)) ?_
    exact fun _ second hmem => hfirst second hmem sequence rfl
  | user => exact hcalled

omit [DecidableEq T] in
/-- The start of a pass keeps the invariant: the expired timers move from `timers` to the batch. -/
theorem Inv.expire (h : s.Inv) (now : ℤ) (hbatch : s.batch = none) :
    Inv { s with
      queue := (s.queue.getExpired now).2
      batch := some ⟨(s.queue.getExpired now).1, (s.queue.getExpired now).1, now, false⟩ } := by
  refine h.of_le (fun q => ?_) (List.Sublist.refl _) rfl rfl ?_ h.late
  · have hcopies := s.queue.copies_getExpired now q
    unfold total
    simp only [hbatch, Option.elim_some, Option.elim_none, waiting]
    omega
  · rintro b hb
    rw [← Option.some.inj hb]
    exact List.Subset.refl _

omit [DecidableEq T] in
/-- The next callback of a pass keeps the invariant: its timer is in the batch, so it is not one that
was cancelled outside a pass. -/
theorem Inv.runNext (h : s.Inv) {expired rest : List Entry} {e : Entry} {now : ℤ} {called : Bool}
    (hbatch : s.batch = some ⟨expired, e :: rest, now, called⟩) :
    Inv { s with
      batch := some ⟨expired, rest, now, true⟩
      late := if e.2.callback ∧ e.2.sequence ∈ s.cancelled then e.2.sequence :: s.late
        else s.late } := by
  have hsub : e :: rest ⊆ expired := h.rest _ hbatch
  have hlive : e.2.sequence ∉ s.cancelled := by
    intro hcancelled
    have hgone := h.gone _ hcancelled
    have hcopy : 0 < TimerQueue.copies e.2.sequence expired :=
      List.countP_pos_iff.mpr ⟨e, hsub List.mem_cons_self, by simp⟩
    unfold total at hgone
    simp only [hbatch, Option.elim_some] at hgone
    omega
  refine h.of_le (fun q => ?_) (List.Sublist.refl _) rfl rfl ?_ ?_
  · unfold total
    simp only [hbatch, Option.elim_some, waiting]
    exact le_rfl
  · rintro b hb
    rw [← Option.some.inj hb]
    exact fun x hx => hsub (List.mem_cons_of_mem e hx)
  · rw [if_neg (fun hlate => hlive hlate.2)]
    exact h.late

omit [DecidableEq T] in
/-- The end of a pass keeps the invariant: `reset` inserts timers of the batch only. -/
theorem Inv.reset (h : s.Inv) {expired rest : List Entry} {now : ℤ} {called : Bool}
    (hbatch : s.batch = some ⟨expired, rest, now, called⟩) :
    Inv { s with queue := s.queue.reset expired now, batch := none } := by
  refine h.of_le (fun q => ?_) (List.Sublist.refl _) rfl rfl (by simp) h.late
  have hcopies := s.queue.copies_reinsert_le expired now q
  unfold total
  simp only [hbatch, Option.elim_some, Option.elim_none, waiting, TimerQueue.reset_timers]
  omega

/-- Every step in which the loop thread, outside a pass, cancels no timer whose insertion still waits
keeps the invariant. -/
theorem Inv.step (h : s.Inv) {label : TimerLabel T} (hinserted : cancelsInserted owner s label)
    (hs : s.step owner label = some s') : s'.Inv := by
  cases step_spec hs with
  | quiet _ _ hwaiting => exact h.of_waiting hwaiting
  | call _ hwaiting => exact h.call hwaiting
  | queueInLoop _ hwaiting => exact h.enqueue hwaiting (fun _ => rfl) (by simp)
  | addTimer _ hwaiting hfresh => exact h.addTimer hwaiting hfresh
  | queueCancel _ hwaiting hused =>
    refine h.enqueue hwaiting (fun _ => rfl) fun q hq => ?_
    rw [← TimerFunctor.cancel.inj hq]
    exact hused
  | cancel hused => exact h.cancelInLoop hused (hinserted rfl)
  | @expire now _ _ hbatch => exact h.expire now hbatch
  | runNext hbatch => exact h.runNext hbatch
  | reset hbatch => exact h.reset hbatch

end

end TimerLoop

/-- In every run in which the loop thread, outside a pass, cancels no timer whose insertion still waits
in the queue, a timer whose cancellation was executed outside a pass is not in `timers`, and its
callback is never started again. -/
theorem cancelsForGood_of_inserted {T : Type*} [DecidableEq T] (owner : T)
    (labels : List (TimerLabel T))
    (h : Along (TimerLoop.step owner) (TimerLoop.cancelsInserted owner) .constructed labels) :
    Everywhere (TimerLoop.step owner) TimerLoop.CancelsForGood .constructed labels := by
  have hconstructed : (TimerLoop.constructed : TimerLoop T).Inv := by
    refine ⟨fun _ => Nat.zero_le _, fun _ _ => rfl, List.Pairwise.nil, ?_, ?_, ?_, ?_, rfl⟩ <;>
      simp [TimerLoop.constructed, TimerLoop.waiting, LoopSystem.constructed, EventLoop.constructed,
        EventLoop.waiting]
  have holds (s : TimerLoop T) (hs : s.Inv) : s.CancelsForGood := by
    refine ⟨fun sequence hmem => ?_, hs.late⟩
    have hgone := hs.gone sequence hmem
    unfold TimerLoop.total at hgone
    omega
  exact everywhere_of_along holds (fun s label s' hs hc hstep => hs.step hc hstep) hconstructed h

/-- A repeating timer. -/
def Timer.ticking : Timer := ⟨1, true, 10, 10, 1⟩

/-- Two cancellations that are executed. A foreign thread adds a timer, which runs once, and cancels it:
the functor of the cancellation takes it out of `timers`. A functor of the next iteration inserts a timer
that the loop thread has added, and the loop thread cancels it behind the insertion. The pass at the end
finds neither. -/
def TimerLoop.cancellations : List (TimerLabel Bool) :=
  [.addTimer false .ticking, .queueTest false, .queueWake false, .move .enter, .move .test, .move .poll,
    .move .handleRead, .move .handled, .move .swap, .move .call, .move .finish,
    .cancel false 1, .queueTest false, .queueWake false, .move .test, .move .poll,
    .expire 11, .runNext, .reset, .move .handleRead, .move .handled, .move .swap, .move .call,
    .addTimer true { Timer.ticking with address := 2, sequence := 2 }, .queueTest true, .queueWake true,
    .move .finish, .move .test, .move .poll, .move .handleRead, .move .handled, .move .swap, .move .call,
    .cancel true 2, .move .finish, .move .test, .move .poll, .expire 30, .reset]

/-- Both timers are cancelled at the end of the run, and neither is in `timers` or has run since. -/
theorem cancelsForGood_executed :
    (run (TimerLoop.step true) TimerLoop.constructed TimerLoop.cancellations).map
        (fun s => (s.cancelled, s.queue.timers)) = some ([2, 1], []) ∧
      Everywhere (TimerLoop.step true) TimerLoop.CancelsForGood TimerLoop.constructed
        TimerLoop.cancellations :=
  ⟨by decide, cancelsForGood_of_inserted true _ (by decide)⟩

/-- The loop thread adds a timer in front of `loop()` and cancels it at once; the first iteration puts
it into `timers`. -/
theorem cancelsForGood_too_early :
    ¬ Everywhere (TimerLoop.step true) TimerLoop.CancelsForGood TimerLoop.constructed
      [.addTimer true .ticking, .queueTest true, .cancel true 1, .move .enter, .move .test,
        .move .poll, .move .handled, .move .swap, .move .call] := by
  decide

end CcMuduo
