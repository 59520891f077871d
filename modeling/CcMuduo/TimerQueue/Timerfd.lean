import CcMuduo.Foundation.Run
import CcMuduo.TimerQueue.WellFormed

/-!
# The timer descriptor covers the earliest timer

The kernel's timer behind `timerfd_`: what it is armed with, and whether it is readable. Only an
insertion in front of all entries and the end of a pass with entries left arm it; a cancellation, a
later insertion and a pass that leaves nothing do not.

Whenever the loop comes to `poll`, every timer in `timers` is covered: the descriptor is readable, or it
is armed for the timer's expiration at the latest, or for 100 microseconds after it was armed when that
is later. Instants are nanoseconds of the monotonic clock, and each reading of the clock that arms the
timer is the instant of the arming.
-/

namespace CcMuduo

open Foundation

/-- `struct timespec`. -/
structure Timespec where
  tv_sec : ℤ
  tv_nsec : ℤ
  deriving DecidableEq, Repr

/-- The span in nanoseconds. -/
def Timespec.nanoseconds (t : Timespec) : ℤ := t.tv_sec * 1000000000 + t.tv_nsec

/-- `howMuchTimeFromNow` on its reading of the clock. The cast to microseconds and the divisions
truncate. -/
def howMuchTimeFromNow (now when_ : ℤ) : Timespec :=
  let microseconds := (when_ - now).tdiv 1000
  let microseconds := if microseconds < 100 then 100 else microseconds
  ⟨microseconds.tdiv 1000000, microseconds.tmod 1000000 * 1000⟩

/-- The span of `howMuchTimeFromNow` is a valid non-zero `timespec`. It is at least 100 microseconds
and otherwise no longer than asked. -/
theorem howMuchTimeFromNow_spec (now when_ : ℤ) :
    howMuchTimeFromNow now when_ ≠ ⟨0, 0⟩ ∧ 0 ≤ (howMuchTimeFromNow now when_).tv_nsec ∧
      (howMuchTimeFromNow now when_).tv_nsec < 1000000000 ∧
      (howMuchTimeFromNow now when_).nanoseconds ≤ max (when_ - now) 100000 := by
  have hspan : (when_ - now).tdiv 1000 * 1000 ≤ max (when_ - now) 0 := by
    by_cases hneg : when_ - now < 0
    · have hround : (when_ - now).tdiv 1000 = -((now - when_) / 1000) := by
        rw [← Int.neg_sub now when_, Int.neg_tdiv, Int.tdiv_eq_ediv_of_nonneg (by omega)]
      omega
    · rw [Int.tdiv_eq_ediv_of_nonneg (by omega)]
      omega
  have hparts (m : ℤ) (hm : 100 ≤ m) :
      m.tdiv 1000000 = m / 1000000 ∧ m.tmod 1000000 = m % 1000000 :=
    ⟨Int.tdiv_eq_ediv_of_nonneg (by omega), Int.tmod_eq_emod_of_nonneg (by omega)⟩
  simp only [howMuchTimeFromNow, Timespec.nanoseconds, ne_eq, Timespec.mk.injEq]
  split
  · obtain ⟨hsec, hnsec⟩ := hparts 100 (Int.le_refl _)
    omega
  · rename_i hlong
    obtain ⟨hsec, hnsec⟩ := hparts ((when_ - now).tdiv 1000) (by omega)
    omega

/-- What the kernel was told: the span, and the instant it counts from. -/
structure Arming where
  it_value : Timespec
  instant : ℤ
  deriving DecidableEq, Repr

/-- When the armed timer expires. -/
def Arming.deadline (a : Arming) : ℤ := a.instant + a.it_value.nanoseconds

/-- The kernel's timer: what it is armed with, and whether an expiration waits to be read. -/
structure Timerfd where
  armed : Option Arming
  readable : Bool
  deriving DecidableEq, Repr

namespace Timerfd

/-- `timerfd_settime` with a relative span and no interval: it replaces what was armed and clears an
earlier expiration. A zero span disarms. -/
def settime (now : ℤ) (value : Timespec) : Timerfd :=
  ⟨if value = ⟨0, 0⟩ then none else some ⟨value, now⟩, false⟩

/-- `resetTimerfd` at an instant. -/
def resetTimerfd (now expiration : ℤ) : Timerfd := settime now (howMuchTimeFromNow now expiration)

/-- Time goes on until an instant. -/
def elapse (fd : Timerfd) (now : ℤ) : Timerfd :=
  if fd.armed.any fun a => decide (a.deadline ≤ now) then ⟨none, true⟩ else fd

/-- `readTimerfd`. -/
def read (fd : Timerfd) : Timerfd := { fd with readable := false }

/-- Several calls of `resetTimerfd`, each with its instant. -/
def rearm (fd : Timerfd) (calls : List (ℤ × ℤ)) : Timerfd :=
  calls.foldl (fun _ call => resetTimerfd call.1 call.2) fd

/-- The timer of the entry will be noticed: an expiration waits to be read, or the armed one comes no
later than that of the entry, or than 100 microseconds after it was armed. -/
def Covers (fd : Timerfd) (e : Entry) : Prop :=
  fd.readable = true ∨ ∃ a, fd.armed = some a ∧ a.it_value ≠ ⟨0, 0⟩ ∧
    0 ≤ a.it_value.tv_nsec ∧ a.it_value.tv_nsec < 1000000000 ∧
    a.deadline ≤ max e.2.expiration (a.instant + 100000)

/-- Arming for an expiration covers every entry that does not come before it. -/
theorem covers_resetTimerfd {now expiration : ℤ} {e : Entry} (h : expiration ≤ e.2.expiration) :
    (resetTimerfd now expiration).Covers e := by
  obtain ⟨hzero, hlow, hhigh, hspan⟩ := howMuchTimeFromNow_spec now expiration
  refine .inr ⟨⟨howMuchTimeFromNow now expiration, now⟩, ?_, hzero, hlow, hhigh, ?_⟩
  · rw [resetTimerfd, settime, if_neg hzero]
  · simp only [Arming.deadline]
    omega

/-- A covered entry stays covered when time goes on. -/
theorem Covers.elapse {fd : Timerfd} {e : Entry} (h : fd.Covers e) (now : ℤ) :
    (fd.elapse now).Covers e := by
  unfold Timerfd.elapse
  split
  · exact .inl rfl
  · exact h

/-- What covers an entry covers every later one. -/
theorem Covers.mono {fd : Timerfd} {e e' : Entry} (h : fd.Covers e)
    (hle : e.2.expiration ≤ e'.2.expiration) : fd.Covers e' := by
  rcases h with hread | ⟨a, ha, hzero, hlow, hhigh, hdeadline⟩
  · exact .inl hread
  · exact .inr ⟨a, ha, hzero, hlow, hhigh, by omega⟩

/-- Of several calls the last one counts. -/
theorem rearm_append_singleton (fd : Timerfd) (calls : List (ℤ × ℤ)) (now expiration : ℤ) :
    fd.rearm (calls ++ [(now, expiration)]) = resetTimerfd now expiration := by
  simp [rearm]

end Timerfd

namespace TimerQueue

variable (q : TimerQueue)

/-- The expirations for which `insert` calls `resetTimerfd`. -/
def insertArms (timer : Timer) : List ℤ :=
  if q.timers.head?.all fun e => decide (timer.expiration < e.1) then [timer.expiration] else []

/-- Those for which the loop of `reset` does. -/
def reinsertArms (q : TimerQueue) (now : ℤ) : List Entry → List ℤ
  | [] => []
  | e :: rest =>
    if e.2.repeats then
      q.insertArms (e.2.restart now) ++ (q.insert (e.2.restart now)).reinsertArms now rest
    else q.reinsertArms now rest

/-- Those for which `reset` does. -/
def resetArms (expired : List Entry) (now : ℤ) : List ℤ :=
  q.reinsertArms now expired ++ ((q.reinsert expired now).timers.head?.map Prod.fst).toList

/-- What `insert` last gave to `resetTimerfd`. -/
theorem insert_timerfd (timer : Timer) :
    (q.insert timer).timerfd = (q.insertArms timer).getLast?.or q.timerfd := by
  unfold insert insertArms
  split <;> simp_all

/-- What the loop of `reset` last gave to `resetTimerfd`. -/
theorem reinsert_timerfd (expired : List Entry) (now : ℤ) :
    (q.reinsert expired now).timerfd = (q.reinsertArms now expired).getLast?.or q.timerfd := by
  induction expired generalizing q with
  | nil => rfl
  | cons e rest ih =>
    rw [reinsert_cons, ih, reinsertArms]
    split
    · rw [List.getLast?_append, insert_timerfd, Option.or_assoc]
    · rfl

/-- What `reset` last gave to `resetTimerfd`. -/
theorem reset_timerfd (expired : List Entry) (now : ℤ) :
    (q.reset expired now).timerfd = (q.resetArms expired now).getLast?.or q.timerfd := by
  rw [resetArms, List.getLast?_append, Option.or_assoc, ← reinsert_timerfd, reset]
  cases h : (q.reinsert expired now).timers <;> simp

end TimerQueue

/-- The expirations that a step of the loop gives to `resetTimerfd`, in order. -/
def TimerView.arms {T : Type*} (v : TimerView) : TimerLabel T → List ℤ
  | .move .call =>
    match v.waiting with
    | .insert timer :: _ => v.queue.insertArms timer
    | _ => []
  | .reset => v.batch.elim [] fun b => v.queue.resetArms b.expired b.now
  | _ => []

/-- A loop with its timers, the kernel's timer, and the time. -/
structure TimerfdLoop (T : Type*) where
  loop : TimerLoop T
  timerfd : Timerfd
  clock : ℤ

/-- Time goes on, or the loop or a call on it takes a step that arms the timer at the instants. -/
inductive TimerfdLabel (T : Type*) where
  | elapse (now : ℤ)
  | loop (label : TimerLabel T) (instants : List ℤ)

namespace TimerfdLoop

variable {T : Type*} [DecidableEq T]

/-- Everything behind its constructor, at the time 0. -/
def constructed : TimerfdLoop T := ⟨.constructed, ⟨none, false⟩, 0⟩

/-- The pass begins with a reading of the clock and then reads the descriptor. -/
def beginPass (fd : Timerfd) : TimerLabel T → Timerfd
  | .expire _ => fd.read
  | _ => fd

/-- The clock was not read before its time. -/
def readsClock (s : TimerfdLoop T) : TimerLabel T → Bool
  | .expire now => decide (now ≤ s.clock)
  | _ => true

/-- One step, where `owner` is the loop's own thread. Time never goes back. -/
def step (owner : T) (s : TimerfdLoop T) : TimerfdLabel T → Option (TimerfdLoop T)
  | .elapse now =>
    if s.clock ≤ now then some { s with timerfd := s.timerfd.elapse now, clock := now } else none
  | .loop label instants =>
    let expirations := s.loop.view.arms label
    if instants.length = expirations.length ∧ (s.clock :: instants).Pairwise (· ≤ ·) ∧
        s.readsClock label then
      (s.loop.step owner label).map fun loop =>
        ⟨loop, (beginPass s.timerfd label).rearm (instants.zip expirations),
          instants.getLast?.getD s.clock⟩
    else none

/-- When the loop is about to poll, no pass is under way and every timer is covered. -/
def CoversTimers (s : TimerfdLoop T) : Prop :=
  s.loop.sys.loop.pc = .polling →
    s.loop.batch = none ∧ ∀ e ∈ s.loop.queue.timers, s.timerfd.Covers e

/-- What every step keeps. -/
structure Inv (s : TimerfdLoop T) : Prop where
  wellFormed : s.loop.queue.WellFormed
  handling : s.loop.InHandler
  covers : s.loop.batch = none → ∀ e ∈ s.loop.queue.timers, s.timerfd.Covers e

variable {owner : T} {s s' : TimerfdLoop T}

omit [DecidableEq T] in
/-- Between its handlers the loop has no pass under way, so every timer is covered in `poll`. -/
theorem Inv.coversTimers (h : s.Inv) : s.CoversTimers := by
  intro hpc
  have hbatch : s.loop.batch = none := by
    by_contra hne
    obtain ⟨active, hactive⟩ := h.handling hne
    rw [hpc] at hactive
    contradiction
  exact ⟨hbatch, h.covers hbatch⟩

/-- The insertion of a timer leaves every timer covered, whether it arms the descriptor or not. -/
theorem covers_insert {q : TimerQueue} {fd : Timerfd} {timer : Timer} {instants : List ℤ}
    (hq : q.WellFormed) (hcovers : ∀ e ∈ q.timers, fd.Covers e)
    (hlength : instants.length = (q.insertArms timer).length) :
    ∀ e ∈ (q.insert timer).timers, (fd.rearm (instants.zip (q.insertArms timer))).Covers e := by
  intro e he
  have hold := TimerQueue.mem_insert he
  unfold TimerQueue.insertArms at hlength ⊢
  split at hlength
  · rename_i hfirst
    rw [if_pos hfirst]
    obtain ⟨now, rfl⟩ := List.length_eq_one_iff.mp hlength
    apply Timerfd.covers_resetTimerfd
    rcases hold with rfl | hold
    · exact Int.le_refl _
    · cases hhead : q.timers.head? with
      | none => simp_all
      | some first =>
        have hle := hq.head_le hhead hold
        have hkey := hq.keyed e hold
        simp only [hhead, Option.all_some, decide_eq_true_eq] at hfirst
        omega
  · rename_i hlater
    rw [if_neg hlater, List.zip_nil_right]
    rcases hold with rfl | hold
    · cases hhead : q.timers.head? with
      | none => simp [hhead] at hlater
      | some first =>
        have hmem : first ∈ q.timers := List.mem_of_mem_head? hhead
        refine (hcovers first hmem).mono ?_
        change first.2.expiration ≤ timer.expiration
        have hkey := hq.keyed first hmem
        simp only [hhead, Option.all_some, decide_eq_true_eq] at hlater
        omega
    · exact hcovers e hold

/-- The end of a pass leaves every timer covered. -/
theorem covers_reset {q : TimerQueue} {fd : Timerfd} {expired : List Entry} {now : ℤ}
    {instants : List ℤ} (hq : q.WellFormed)
    (hlength : instants.length = (q.resetArms expired now).length) :
    ∀ e ∈ (q.reset expired now).timers,
      (fd.rearm (instants.zip (q.resetArms expired now))).Covers e := by
  intro e he
  rw [TimerQueue.reset_timers] at he
  unfold TimerQueue.resetArms at hlength ⊢
  cases hhead : (q.reinsert expired now).timers.head? with
  | none => simp_all
  | some first =>
    simp only [hhead, Option.map_some, Option.toList_some] at hlength ⊢
    obtain ⟨front, last, rfl⟩ : ∃ front last, instants = front ++ [last] :=
      ⟨_, _, (List.dropLast_append_getLast (by rintro rfl; simp at hlength)).symm⟩
    have hfront : front.length = (q.reinsertArms now expired).length := by simpa using hlength
    rw [List.zip_append hfront, List.zip_cons_cons, List.zip_nil_right,
      Timerfd.rearm_append_singleton]
    apply Timerfd.covers_resetTimerfd
    have hwell := hq.reinsert expired now
    have hle := hwell.head_le hhead he
    have hkey := hwell.keyed e he
    omega

/-- The entries are well formed and, outside a pass, covered. -/
def Covered (v : TimerView) (fd : Timerfd) : Prop :=
  v.queue.WellFormed ∧ (v.batch = none → ∀ e ∈ v.queue.timers, fd.Covers e)

omit [DecidableEq T] in
/-- A step of the loop that arms the descriptor as the code does keeps the timers covered. -/
theorem Covered.step {v v' : TimerView} {label : TimerLabel T} {fd : Timerfd} {instants : List ℤ}
    (h : Covered v fd) (hs : v.Step label v') (hlength : instants.length = (v.arms label).length) :
    Covered v' ((beginPass fd label).rearm (instants.zip (v.arms label))) := by
  obtain ⟨hwell, hcovers⟩ := h
  refine ⟨hs.wellFormed hwell, ?_⟩
  cases hs with
  | quiet hquiet =>
    have harms : v.arms label = [] ∧ beginPass fd label = fd := by
      cases label with
      | move m => cases m <;> first | exact ⟨rfl, rfl⟩ | contradiction
      | quit | queueTest | queueWake | quitTest | quitWake => exact ⟨rfl, rfl⟩
      | queueInLoop | addTimer | cancel | expire | runNext | reset => contradiction
    rw [harms.1, harms.2, List.zip_nil_right]
    exact hcovers
  | @call queue functor rest used =>
    intro _
    cases functor with
    | insert timer => exact covers_insert hwell (hcovers rfl) hlength
    | cancel sequence =>
      rw [show TimerView.arms ⟨queue, none, .cancel sequence :: rest, used⟩
        (.move .call : TimerLabel T) = [] from rfl, List.zip_nil_right]
      exact fun e he => hcovers rfl e (TimerQueue.mem_of_mem_cancel he)
    | user =>
      rw [show TimerView.arms ⟨queue, none, .user :: rest, used⟩
        (.move .call : TimerLabel T) = [] from rfl, List.zip_nil_right]
      exact hcovers rfl
  | queueInLoop | addTimer | queueCancel =>
    simp only [TimerView.arms, List.zip_nil_right]
    exact hcovers
  | cancel =>
    simp only [TimerView.arms, List.zip_nil_right]
    exact fun hbatch e he => hcovers hbatch e (TimerQueue.mem_of_mem_cancel he)
  | expire | runNext => exact fun hbatch => nomatch hbatch
  | reset => exact fun _ => covers_reset hwell hlength

/-- Every step keeps every timer covered outside a pass. -/
theorem Inv.step {label : TimerfdLabel T} (h : s.Inv) (hs : s.step owner label = some s') :
    s'.Inv := by
  cases label with
  | elapse now =>
    obtain ⟨-, hs⟩ := Option.ite_none_right_eq_some.mp hs
    obtain rfl := Option.some.inj hs
    exact ⟨h.wellFormed, h.handling, fun hbatch e he => (h.covers hbatch e he).elapse now⟩
  | loop label instants =>
    obtain ⟨⟨hlength, -, -⟩, hs⟩ := Option.ite_none_right_eq_some.mp hs
    obtain ⟨loop, hloop, rfl⟩ := Option.map_eq_some_iff.mp hs
    have hold : Covered s.loop.view s.timerfd := ⟨h.wellFormed, h.covers⟩
    obtain ⟨hwell, hcovers⟩ := hold.step (TimerLoop.step_view hloop) hlength
    exact ⟨hwell, h.handling.step hloop, hcovers⟩

end TimerfdLoop

/-- In every run, whenever the loop is about to poll, every timer in `timers` is covered by the timer
descriptor. -/
theorem timerfd_coversTimers {T : Type*} [DecidableEq T] (owner : T) (labels : List (TimerfdLabel T)) :
    Everywhere (TimerfdLoop.step owner) TimerfdLoop.CoversTimers .constructed labels := by
  refine everywhere_of_invariant (I := TimerfdLoop.Inv) (fun _ hs => hs.coversTimers)
    (fun _ _ _ hs hstep => hs.step hstep) ?_ labels
  exact ⟨⟨List.Pairwise.nil, fun e he => nomatch he⟩, fun hbatch => absurd rfl hbatch,
    fun _ e he => nomatch he⟩

end CcMuduo
