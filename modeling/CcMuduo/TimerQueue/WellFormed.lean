import CcMuduo.TimerQueue.TimerView

/-!
# Order and keys of the entries

The entries of `timers` are in order, and every key is the expiration of its timer. Every operation of
the queue keeps both, so `getExpired` takes exactly the timers that expire before its time.
-/

namespace CcMuduo

open Foundation

/-- The order of the entries is transitive. -/
theorem Entry.lt_trans (a b c : Entry) (hab : Entry.lt a b = true) (hbc : Entry.lt b c = true) :
    Entry.lt a c = true := by
  simp only [Entry.lt, Bool.or_eq_true, decide_eq_true_eq, Bool.and_eq_true, beq_iff_eq] at hab hbc ⊢
  omega

/-- Entries of different timer objects are comparable. -/
theorem Entry.lt_or_lt {a b : Entry} (h : a.2.address ≠ b.2.address) :
    Entry.lt a b = true ∨ Entry.lt b a = true := by
  simp only [Entry.lt, Bool.or_eq_true, decide_eq_true_eq, Bool.and_eq_true, beq_iff_eq]
  omega

/-- A smaller entry has no larger key. -/
theorem Entry.key_le_of_lt {a b : Entry} (h : Entry.lt a b = true) : a.1 ≤ b.1 := by
  simp only [Entry.lt, Bool.or_eq_true, decide_eq_true_eq, Bool.and_eq_true, beq_iff_eq] at h
  omega

namespace TimerQueue

variable {q : TimerQueue}

/-- The entries are in order, and every key is the expiration of its timer. -/
structure WellFormed (q : TimerQueue) : Prop where
  ordered : q.timers.Pairwise fun a b => Entry.lt a b = true
  keyed : ∀ e ∈ q.timers, e.1 = e.2.expiration

/-- A queue with a part of the entries is well formed. -/
theorem WellFormed.sublist (h : q.WellFormed) {q' : TimerQueue} (hsub : q'.timers.Sublist q.timers) :
    q'.WellFormed :=
  ⟨h.ordered.sublist hsub, fun e he => h.keyed e (hsub.subset he)⟩

/-- An insertion uses the expiration as the key, at the place of the entry in the order. -/
theorem WellFormed.insert (h : q.WellFormed) (timer : Timer) : (q.insert timer).WellFormed := by
  refine ⟨insertOrdered_pairwise Entry.lt_trans h.ordered, fun e he => ?_⟩
  rcases mem_insert he with rfl | hold
  · rfl
  · exact h.keyed e hold

/-- Cancelling leaves a part of the entries. -/
theorem WellFormed.cancel (h : q.WellFormed) (sequence : ℕ) : (q.cancel sequence).WellFormed :=
  h.sublist List.eraseP_sublist

/-- A functor keeps the entries well formed. -/
theorem WellFormed.execute (h : q.WellFormed) (functor : TimerFunctor) :
    (q.execute functor).WellFormed := by
  cases functor with
  | insert timer => exact h.insert timer
  | cancel sequence => exact h.cancel sequence
  | user => exact h

/-- Taking the expired entries out leaves a part of the entries. -/
theorem WellFormed.getExpired (h : q.WellFormed) (now : ℤ) : (q.getExpired now).2.WellFormed :=
  h.sublist (List.dropWhile_sublist _)

/-- The loop of `reset` keeps the entries well formed. -/
theorem WellFormed.reinsert (h : q.WellFormed) (expired : List Entry) (now : ℤ) :
    (q.reinsert expired now).WellFormed := by
  induction expired generalizing q with
  | nil => exact h
  | cons e rest ih =>
    rw [reinsert_cons]
    apply ih
    split
    · exact h.insert _
    · exact h

/-- `reset` keeps the entries well formed. -/
theorem WellFormed.reset (h : q.WellFormed) (expired : List Entry) (now : ℤ) :
    (q.reset expired now).WellFormed :=
  (h.reinsert expired now).sublist (by rw [reset_timers])

/-- The first entry is the earliest. -/
theorem WellFormed.head_le (h : q.WellFormed) {first : Entry} (hfirst : q.timers.head? = some first)
    {e : Entry} (he : e ∈ q.timers) : first.1 ≤ e.1 := by
  have hordered := h.ordered
  cases htimers : q.timers with
  | nil => simp [htimers] at he
  | cons a rest =>
    rw [htimers] at hfirst he hordered
    obtain rfl := Option.some.inj hfirst
    rcases List.mem_cons.mp he with rfl | hrest
    · exact Int.le_refl _
    · exact Entry.key_le_of_lt ((List.pairwise_cons.mp hordered).1 e hrest)

/-- `getExpired` takes exactly the entries of the timers that expire before its time, in order. -/
theorem WellFormed.getExpired_fst (h : q.WellFormed) (now : ℤ) :
    (q.getExpired now).1 = q.timers.filter fun e => decide (e.2.expiration < now) := by
  have htake := takeWhile_eq_filter (p := fun e : Entry => decide (e.1 < now)) h.ordered
    fun x y hxy hy => by
      have hle := Entry.key_le_of_lt hxy
      simp only [decide_eq_true_eq] at hy ⊢
      omega
  rw [TimerQueue.getExpired, htake]
  exact List.filter_congr fun e he => by rw [h.keyed e he]

/-- Inserting a timer whose object is not in `timers` adds exactly its entry. -/
theorem insert_perm {timer : Timer} (h : timer.address ∉ q.timers.map fun e => e.2.address) :
    (q.insert timer).timers.Perm ((timer.expiration, timer) :: q.timers) :=
  insertOrdered_perm fun x hx => Entry.lt_or_lt fun heq =>
    h (List.mem_map.mpr ⟨x, hx, heq.symm⟩)

end TimerQueue

/-- Every step keeps the entries well formed. -/
theorem TimerView.Step.wellFormed {T : Type*} {v v' : TimerView} {label : TimerLabel T}
    (hs : v.Step label v') (h : v.queue.WellFormed) : v'.queue.WellFormed := by
  cases hs with
  | quiet | queueInLoop | addTimer | queueCancel | runNext => exact h
  | call => exact h.execute _
  | cancel => exact h.cancel _
  | expire => exact h.getExpired _
  | reset => exact h.reset _ _

end CcMuduo
