import CcMuduo.Foundation.Lists
import CcMuduo.TimerQueue.Places

/-!
# No timer is lost, doubled or early

Every run of a timer is behind the expiration it had, and a timer that may still run expires an
interval after its last run at least, unless `restart` has wrapped. With the places of the timers this
gives what holds in every state of every run.
-/

namespace CcMuduo

open Foundation

/-- The runs are on time: `ahead` are the timers that may be run next, and `clock` is the last reading
of the clock. -/
structure RunsOnTime (runs : List TimerRun) (clock : Option ℤ) (ahead : List Timer) (used : List ℕ) :
    Prop where
  early : ∀ r ∈ runs, r.timer.expiration < r.now
  read : ∀ r ∈ runs, ∃ last ∈ clock, r.now ≤ last
  made : ∀ r ∈ runs, r.timer.sequence ∈ used
  spaced : runs.Pairwise fun later earlier =>
    later.timer.sequence = earlier.timer.sequence →
      later.timer.repeats = true ∧ earlier.now + later.timer.interval < later.now
  next : ∀ r ∈ runs, ∀ t ∈ ahead, t.sequence = r.timer.sequence →
    t.repeats = true ∧ r.now + t.interval ≤ t.expiration

namespace RunsOnTime

variable {runs : List TimerRun} {clock : Option ℤ} {ahead ahead' : List Timer} {used : List ℕ} {now : ℤ}

/-- Fewer timers ahead are still on time. -/
theorem subset (h : RunsOnTime runs clock ahead used) (hsub : ahead' ⊆ ahead) :
    RunsOnTime runs clock ahead' used :=
  ⟨h.early, h.read, h.made, h.spaced, fun r hr t ht => h.next r hr t (hsub ht)⟩

/-- A new timer has no runs. -/
theorem add (h : RunsOnTime runs clock ahead used) {timer : Timer} (hfresh : timer.sequence ∉ used) :
    RunsOnTime runs clock (timer :: ahead) (timer.sequence :: used) := by
  refine ⟨h.early, h.read, fun r hr => List.mem_cons_of_mem _ (h.made r hr), h.spaced,
    fun r hr t ht hsame => ?_⟩
  rcases List.mem_cons.mp ht with rfl | hold
  · exact absurd (hsame ▸ h.made r hr) hfresh
  · exact h.next r hr t hold hsame

/-- The clock is read again and has not gone back. -/
theorem tick (h : RunsOnTime runs clock ahead used) (hclock : ∀ before ∈ clock, before ≤ now) :
    RunsOnTime runs (some now) ahead used := by
  refine ⟨h.early, fun r hr => ?_, h.made, h.spaced, h.next⟩
  obtain ⟨last, hlast, hle⟩ := h.read r hr
  exact ⟨now, rfl, Int.le_trans hle (hclock last hlast)⟩

/-- A timer behind its expiration is run, and is not ahead any more. -/
theorem run (h : RunsOnTime runs (some now) ahead used) {timer : Timer} (hmem : timer ∈ ahead)
    (hexpired : timer.expiration < now) (hused : timer.sequence ∈ used) (hsub : ahead' ⊆ ahead)
    (hgone : ∀ t ∈ ahead', t.sequence ≠ timer.sequence) :
    RunsOnTime (⟨timer, now⟩ :: runs) (some now) ahead' used := by
  refine ⟨List.forall_mem_cons.mpr ⟨hexpired, h.early⟩,
    List.forall_mem_cons.mpr ⟨⟨now, rfl, Int.le_refl _⟩, h.read⟩,
    List.forall_mem_cons.mpr ⟨hused, h.made⟩, List.pairwise_cons.mpr ⟨fun r hr hsame => ?_, h.spaced⟩,
    List.forall_mem_cons.mpr ⟨fun t ht hsame => absurd hsame (hgone t ht), (h.subset hsub).next⟩⟩
  obtain ⟨hrepeats, hle⟩ := h.next r hr timer hmem hsame
  exact ⟨hrepeats, Int.lt_of_le_of_lt hle hexpired⟩

/-- A restarted timer expires an interval after the reading of its pass. -/
theorem restart (h : RunsOnTime runs (some now) ahead used)
    (hahead : ∀ t ∈ ahead', t ∈ ahead ∨
      ∃ s : Timer, s.repeats = true ∧ IsSigned 64 (now + s.interval) ∧ t = s.restart now) :
    RunsOnTime runs (some now) ahead' used := by
  refine ⟨h.early, h.read, h.made, h.spaced, fun r hr t ht hsame => ?_⟩
  rcases hahead t ht with hold | ⟨s, hrepeats, hfits, rfl⟩
  · exact h.next r hr t hold hsame
  · obtain ⟨last, hlast, hle⟩ := h.read r hr
    obtain rfl := Option.some.inj hlast
    rw [s.restart_of_repeats hrepeats hfits]
    exact ⟨hrepeats, Int.add_le_add_right hle s.interval⟩

end RunsOnTime

/-- The record of a pass under way agrees with the pass. -/
structure PassRecord.Follows (p : PassRecord) (b : Batch) : Prop where
  reading : p.now = b.now
  ran : p.ran ++ b.rest.map Prod.snd = b.expired.map Prod.snd
  expired : b.expired = p.present.filter fun e => decide (e.2.expiration < p.now)
  ordered : (b.expired.map fun e => e.2.expiration).Pairwise (· ≤ ·)

namespace PassRecord.Follows

variable {p : PassRecord} {expired rest : List Entry} {e : Entry} {now : ℤ} {called : Bool}

/-- Running a timer keeps the record in agreement. -/
theorem run (h : p.Follows ⟨expired, e :: rest, now, called⟩) :
    PassRecord.Follows { p with ran := p.ran ++ [e.2] } ⟨expired, rest, now, true⟩ :=
  ⟨h.reading, by rw [List.append_assoc]; exact h.ran, h.expired, h.ordered⟩

/-- The timers that were not reached yet are behind their expirations. -/
theorem expiration_lt {b : Batch} (h : p.Follows b) {t : Timer} (ht : t ∈ b.rest.map Prod.snd) :
    t.expiration < b.now := by
  have hexpired : t ∈ b.expired.map Prod.snd := h.ran ▸ List.mem_append_right _ ht
  obtain ⟨e, he, rfl⟩ := List.mem_map.mp hexpired
  rw [h.expired] at he
  exact h.reading ▸ of_decide_eq_true (List.mem_filter.mp he).2

/-- A pass that has reached all its timers is exact. -/
theorem exact (h : p.Follows ⟨expired, [], now, called⟩)
    (hnodup : ((expired.map Prod.snd).map Timer.sequence).Nodup) : p.Exact := by
  have hran : p.ran = expired.map Prod.snd := by simpa using h.ran
  refine ⟨?_, ?_, hran ▸ hnodup⟩
  · rw [hran, ← h.expired]
  · rw [hran, List.map_map]
    exact h.ordered

end PassRecord.Follows

/-- The history agrees with the pass under way, or there is none. -/
def TimerLog.Tracks (g : TimerLog) : Option Batch → Prop
  | none => g.pass = none
  | some b => g.clock = some b.now ∧ ∃ p, g.pass = some p ∧ p.Follows b

/-- The runs and the passes are as they should be. -/
structure TimerLog.Timed (g : TimerLog) (v : TimerView) : Prop where
  runs : RunsOnTime g.runs g.clock v.ahead v.used
  pass : g.Tracks v.batch
  passes : ∀ p ∈ g.passes, p.Exact

/-- A pass takes its timers in the order of their expirations. -/
theorem TimerQueue.WellFormed.expirations_le {q : TimerQueue} (h : q.WellFormed) :
    (q.timers.map fun e => e.2.expiration).Pairwise (· ≤ ·) := by
  have hkeys : (q.timers.map fun e => e.2.expiration) = q.timers.map Prod.fst :=
    List.map_congr_left fun e he => (h.keyed e he).symm
  rw [hkeys, List.pairwise_map]
  exact h.ordered.imp Entry.key_le_of_lt

/-- Executing a functor brings no timer ahead. -/
theorem TimerView.ahead_call (queue : TimerQueue) (functor : TimerFunctor) (rest : List TimerFunctor)
    (used : List ℕ) : TimerView.ahead ⟨queue.execute functor, none, rest, used⟩ ⊆
      TimerView.ahead ⟨queue, none, functor :: rest, used⟩ := by
  intro t ht
  rcases List.mem_append.mp ht with hwaiting | hinserted
  · refine List.mem_append_left _ (List.mem_append_left _ ?_)
    rw [show TimerView.unreached ⟨queue.execute functor, none, rest, used⟩ = [] from rfl,
      List.append_nil] at hwaiting
    obtain ⟨other, hother, htimer⟩ := List.mem_filterMap.mp hwaiting
    exact List.mem_filterMap.mpr ⟨other, List.mem_cons_of_mem _ hother, htimer⟩
  · obtain ⟨e, he, rfl⟩ := List.mem_map.mp hinserted
    have hold {e : Entry} (he : e ∈ queue.timers) :
        e.2 ∈ TimerView.ahead ⟨queue, none, functor :: rest, used⟩ :=
      List.mem_append_right _ (List.mem_map_of_mem he)
    cases functor with
    | insert timer =>
      rcases TimerQueue.mem_insert he with rfl | he
      · exact List.mem_append_left _ (List.mem_append_left _ List.mem_cons_self)
      · exact hold he
    | cancel sequence => exact hold (TimerQueue.mem_of_mem_cancel he)
    | user => exact hold he

namespace TimerLog.Timed

variable {T : Type*} {g : TimerLog} {v v' : TimerView}

/-- A pass begins. -/
theorem expire {queue : TimerQueue} {waiting : List TimerFunctor} {used : List ℕ} {now : ℤ}
    (h : g.Timed ⟨queue, none, waiting, used⟩) (hwell : queue.WellFormed)
    (hclock : ∀ before ∈ g.clock, before ≤ now) :
    (g.record ⟨queue, none, waiting, used⟩ (.expire now : TimerLabel T)).Timed
      ⟨(queue.getExpired now).2,
        some ⟨(queue.getExpired now).1, (queue.getExpired now).1, now, false⟩, waiting, used⟩ := by
  have hahead : TimerView.ahead ⟨(queue.getExpired now).2,
      some ⟨(queue.getExpired now).1, (queue.getExpired now).1, now, false⟩, waiting, used⟩ =
      TimerView.ahead ⟨queue, none, waiting, used⟩ := by
    simp only [TimerView.ahead, TimerView.unreached, TimerView.inserted, TimerView.insertions,
      Option.elim, List.append_nil, List.append_assoc]
    rw [← List.map_append, queue.getExpired_append now]
  refine ⟨hahead ▸ h.runs.tick hclock, ⟨rfl, _, rfl, rfl, rfl, hwell.getExpired_fst now, ?_⟩, h.passes⟩
  exact hwell.expirations_le.sublist ((List.takeWhile_sublist _).map _)

/-- A callback is run. -/
theorem runNext {queue : TimerQueue} {waiting : List TimerFunctor} {used : List ℕ} {now : ℤ}
    {expired rest : List Entry} {e : Entry} {called : Bool}
    (h : g.Timed ⟨queue, some ⟨expired, e :: rest, now, called⟩, waiting, used⟩)
    (hplaced : g.Placed ⟨queue, some ⟨expired, e :: rest, now, called⟩, waiting, used⟩) :
    (g.record ⟨queue, some ⟨expired, e :: rest, now, called⟩, waiting, used⟩
      (.runNext : TimerLabel T)).Timed
      ⟨queue, some ⟨expired, rest, now, true⟩, waiting, used⟩ := by
  obtain ⟨hclock, p, hp, hfollows⟩ := h.pass
  have hruns := h.runs
  rw [hclock] at hruns
  set insertions := waiting.filterMap TimerFunctor.timer?
  set inserted := queue.timers.map Prod.snd
  set unreached := rest.map Prod.snd
  have hlive : ((insertions ++ (p.ran ++ e.2 :: unreached) ++ inserted).map Timer.sequence).Nodup := by
    have hsequences := hplaced.places.sequences
    rw [List.map_append] at hsequences
    have hran : p.ran ++ e.2 :: unreached = expired.map Prod.snd := hfollows.ran
    rw [hran]
    exact (List.nodup_append.mp hsequences).1
  have hperm : (insertions ++ (p.ran ++ e.2 :: unreached) ++ inserted).Perm
      (e.2 :: (insertions ++ (p.ran ++ unreached) ++ inserted)) := by
    simp only [List.append_assoc, List.cons_append]
    rw [← List.append_assoc insertions, ← List.append_assoc insertions]
    exact List.perm_middle
  obtain ⟨hother, -⟩ := List.nodup_cons.mp ((hperm.map Timer.sequence).nodup_iff.mp hlive)
  have hsub : insertions ++ unreached ++ inserted ⊆ insertions ++ e.2 :: unreached ++ inserted :=
    ((List.sublist_cons_self _ _).append_left _ |>.append_right _).subset
  have hothers : insertions ++ unreached ++ inserted ⊆
      insertions ++ (p.ran ++ unreached) ++ inserted :=
    ((List.sublist_append_right _ _).append_left _ |>.append_right _).subset
  have hmem : e.2 ∈ insertions ++ e.2 :: unreached ++ inserted := by simp
  have hused : e.2.sequence ∈ used := hplaced.places.made _ <| List.mem_map_of_mem <| by
    refine List.mem_append_left _ (List.mem_append_left _ (List.mem_append_right _ ?_))
    exact (hfollows.ran ▸ by simp : e.2 ∈ expired.map Prod.snd)
  refine ⟨?_, ⟨hclock, _, congrArg (Option.map _) hp, hfollows.run⟩, h.passes⟩
  show RunsOnTime _ g.clock _ _
  rw [hclock]
  exact hruns.run hmem (hfollows.expiration_lt List.mem_cons_self) hused hsub
    fun t ht hsame => hother (hsame ▸ List.mem_map_of_mem (hothers ht))

/-- A pass ends whose restarts fit. -/
theorem reset {queue : TimerQueue} {waiting : List TimerFunctor} {used : List ℕ} {now : ℤ}
    {expired : List Entry} {called : Bool}
    (h : g.Timed ⟨queue, some ⟨expired, [], now, called⟩, waiting, used⟩)
    (hplaced : g.Placed ⟨queue, some ⟨expired, [], now, called⟩, waiting, used⟩)
    (hfits : ∀ e ∈ expired, e.2.repeats = true → IsSigned 64 (now + e.2.interval)) :
    (g.record ⟨queue, some ⟨expired, [], now, called⟩, waiting, used⟩ (.reset : TimerLabel T)).Timed
      ⟨queue.reset expired now, none, waiting, used⟩ := by
  obtain ⟨hclock, p, hp, hfollows⟩ := h.pass
  have hruns := h.runs
  rw [hclock] at hruns
  refine ⟨?_, rfl, fun record hrecord => ?_⟩
  · show RunsOnTime _ g.clock _ _
    rw [hclock]
    refine hruns.restart fun t ht => ?_
    rcases List.mem_append.mp ht with hwaiting | hinserted
    · exact .inl (List.mem_append_left _ hwaiting)
    · rcases List.mem_append.mp ((hplaced.reset_timers_perm now).subset hinserted) with hnew | hold
      · obtain ⟨s, hs, rfl⟩ := List.mem_map.mp hnew
        obtain ⟨hmem, hrepeats⟩ := List.mem_filter.mp hs
        obtain ⟨e, he, rfl⟩ := List.mem_map.mp hmem
        exact .inr ⟨e.2, hrepeats, hfits e he hrepeats, rfl⟩
      · exact .inl (List.mem_append_right _ hold)
  · rcases List.mem_append.mp hrecord with hold | hnew
    · exact h.passes record hold
    · obtain rfl : record = p := by
        rw [hp] at hnew
        exact List.mem_singleton.mp hnew
      refine hfollows.exact ?_
      have hsequences := hplaced.places.sequences
      rw [List.map_append, TimerView.live, List.map_append, List.map_append] at hsequences
      exact (List.nodup_append.mp (List.nodup_append.mp (List.nodup_append.mp hsequences).1).1).2.1

/-- Every step keeps the runs on time and the passes exact. -/
theorem step {label : TimerLabel T} (h : g.Timed v) (hplaced : g.Placed v)
    (hwell : v.queue.WellFormed) (hs : v.Step label v') (hadmits : g.admits v label)
    (hfits : v.RestartsFit label) : (g.record v label).Timed v' := by
  cases hs with
  | quiet hquiet =>
    rw [g.record_of_quiet v hquiet]
    exact h
  | call => exact ⟨h.runs.subset (TimerView.ahead_call _ _ _ _), h.pass, h.passes⟩
  | queueInLoop | queueCancel =>
    refine ⟨?_, h.pass, h.passes⟩
    rw [(v.queue_other rfl).2]
    exact h.runs
  | @addTimer _ _ timer hfresh =>
    refine ⟨(h.runs.add hfresh).subset fun t ht => ?_, h.pass, h.passes⟩
    simpa [TimerView.ahead, TimerView.insertions, TimerView.unreached, TimerView.inserted,
      TimerFunctor.timer?, or_assoc, or_comm, or_left_comm] using ht
  | @cancel _ t sequence hused =>
    refine ⟨h.runs.subset ?_, h.pass, h.passes⟩
    exact ((List.eraseP_sublist.map Prod.snd).append_left _).subset
  | expire => exact h.expire hwell hadmits
  | runNext => exact h.runNext hplaced
  | reset => exact h.reset hplaced (hfits _ rfl)

end TimerLog.Timed

namespace TimerHistory

variable {T : Type*} {h h' : TimerHistory T}

/-- The invariant of a run. -/
structure Inv (h : TimerHistory T) : Prop where
  wellFormed : h.loop.queue.WellFormed
  placed : h.log.Placed h.loop.view
  timed : h.log.Timed h.loop.view

/-- The invariant holds behind the constructor. -/
theorem Inv.constructed : (constructed : TimerHistory T).Inv where
  wellFormed := ⟨List.Pairwise.nil, List.forall_mem_nil _⟩
  placed := {
    places := ⟨List.nodup_nil, List.nodup_nil, List.forall_mem_nil _, List.forall_mem_nil _,
      List.forall_mem_nil _, List.forall_mem_nil _⟩
    asked := fun _ hmem => absurd hmem List.not_mem_nil }
  timed := {
    runs := ⟨List.forall_mem_nil _, List.forall_mem_nil _, List.forall_mem_nil _, List.Pairwise.nil,
      List.forall_mem_nil _⟩
    pass := rfl
    passes := List.forall_mem_nil _ }

/-- The invariant says that timers are conserved and run on time. -/
theorem Inv.conserves (hinv : h.Inv) : h.Conserves := by
  have hplaces := hinv.placed.places
  have hinserted : (h.loop.view.inserted).Sublist h.loop.view.live := List.sublist_append_right _ _
  have hsequences : (h.loop.view.inserted.map Timer.sequence).Nodup := by
    have hlive := hplaces.sequences
    rw [List.map_append] at hlive
    exact (List.nodup_append.mp hlive).1.sublist (hinserted.map _)
  have hkeys : (h.loop.queue.timers.map fun e => e.2.sequence).Nodup := by
    rwa [TimerView.inserted, List.map_map] at hsequences
  refine ⟨fun e he => ?_, ?_, fun sequence hused hasked => ?_, hplaces.oneShot, hinv.timed.passes,
    hinv.timed.runs.early, hinv.timed.runs.spaced, fun sequence => ⟨?_, ?_⟩⟩
  · have hmem : e.2 ∈ h.loop.view.live := hinserted.subset (List.mem_map_of_mem he)
    rw [hinv.wellFormed.keyed e he, hplaces.objects e.2 hmem]
  · have haddresses := hplaces.addresses.sublist (hinserted.map Timer.address)
    rwa [TimerView.inserted, List.map_map] at haddresses
  · exact List.count_eq_one_of_mem hplaces.sequences (hplaces.kept sequence hused hasked)
  · have hcount := List.nodup_iff_count_le_one.mp hkeys sequence
    rwa [List.count, List.countP_map] at hcount
  · exact eraseP_eq_filter_of_nodup hkeys sequence

variable [DecidableEq T] {owner : T}

/-- Every step whose restarts fit keeps the invariant. -/
theorem Inv.step {label : TimerLabel T} (hinv : h.Inv) (hfits : h.loop.view.RestartsFit label)
    (hs : h.step owner label = some h') : h'.Inv := by
  obtain ⟨hadmits, hs⟩ := Option.ite_none_right_eq_some.mp hs
  obtain ⟨loop, hloop, rfl⟩ := Option.map_eq_some_iff.mp hs
  have hview := TimerLoop.step_view hloop
  exact ⟨hview.wellFormed hinv.wellFormed, hinv.placed.step hview hadmits,
    hinv.timed.step hinv.placed hinv.wellFormed hview hadmits hfits⟩

end TimerHistory

end CcMuduo
