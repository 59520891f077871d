import CcMuduo.Foundation.Lists
import CcMuduo.TimerQueue.History

/-!
# The one place of a timer

The timers that something holds are distinct objects with sequences of their own, and a timer that
nobody asked to cancel is held or finished. Every step keeps this: an insertion and a pass only move
timers, a cancellation takes out the timer it was asked for, and the end of a pass puts the repeating
timers back and finishes the others.
-/

namespace CcMuduo

open Foundation

/-- Where the timers are: `live` are those that something holds. -/
structure Places (live finished : List Timer) (used asked : List ℕ) (object : ℕ → Timer) : Prop where
  addresses : (live.map Timer.address).Nodup
  sequences : ((live ++ finished).map Timer.sequence).Nodup
  made : ∀ sequence ∈ (live ++ finished).map Timer.sequence, sequence ∈ used
  kept : ∀ sequence ∈ used, sequence ∉ asked → sequence ∈ (live ++ finished).map Timer.sequence
  objects : ∀ t ∈ live, object t.address = t
  oneShot : ∀ t ∈ finished, t.repeats = false

namespace Places

variable {live live' finished : List Timer} {used asked : List ℕ} {object : ℕ → Timer}

/-- Moving a timer from one place to another keeps the places. -/
theorem perm (h : Places live finished used asked object) (hperm : live'.Perm live) :
    Places live' finished used asked object := by
  have hall := (hperm.append_right finished).map Timer.sequence
  exact ⟨(hperm.map _).nodup_iff.mpr h.addresses, hall.nodup_iff.mpr h.sequences,
    fun sequence hmem => h.made sequence (hall.subset hmem),
    fun sequence hused hasked => hall.symm.subset (h.kept sequence hused hasked),
    fun t ht => h.objects t (hperm.subset ht), h.oneShot⟩

/-- A new timer with a sequence and an address of its own keeps the places. -/
theorem add (h : Places live finished used asked object) {timer : Timer}
    (hsequence : timer.sequence ∉ used) (haddress : timer.address ∉ live.map Timer.address) :
    Places (timer :: live) finished (timer.sequence :: used) asked
      (Function.update object timer.address timer) := by
  have hnew : timer.sequence ∉ (live ++ finished).map Timer.sequence :=
    fun hmem => hsequence (h.made _ hmem)
  refine ⟨List.nodup_cons.mpr ⟨haddress, h.addresses⟩, List.nodup_cons.mpr ⟨hnew, h.sequences⟩,
    fun sequence hmem => ?_, fun sequence hused hasked => ?_, fun t ht => ?_, h.oneShot⟩
  · rcases List.mem_cons.mp hmem with rfl | hold
    · exact List.mem_cons_self
    · exact List.mem_cons_of_mem _ (h.made sequence hold)
  · rcases List.mem_cons.mp hused with rfl | hold
    · exact List.mem_cons_self
    · exact List.mem_cons_of_mem _ (h.kept sequence hold hasked)
  · rcases List.mem_cons.mp ht with rfl | hold
    · exact Function.update_self _ _ _
    · have hne : t.address ≠ timer.address := fun heq => haddress (heq ▸ List.mem_map_of_mem hold)
      rw [Function.update_of_ne hne]
      exact h.objects t hold

/-- Asking for a cancellation keeps the places. -/
theorem ask (h : Places live finished used asked object) (sequence : ℕ) :
    Places live finished used (sequence :: asked) object :=
  ⟨h.addresses, h.sequences, h.made,
    fun s hused hasked => h.kept s hused fun hold => hasked (List.mem_cons_of_mem _ hold), h.objects,
    h.oneShot⟩

/-- Taking out a timer whose cancellation was asked for keeps the places. -/
theorem erase (h : Places live finished used asked object) (hsub : live'.Sublist live)
    (hkept : ∀ t ∈ live, t.sequence ∉ asked → t ∈ live') :
    Places live' finished used asked object := by
  have hall := (hsub.append_right finished).map Timer.sequence
  refine ⟨h.addresses.sublist (hsub.map _), h.sequences.sublist hall,
    fun sequence hmem => h.made sequence (hall.subset hmem), fun sequence hused hasked => ?_,
    fun t ht => h.objects t (hsub.subset ht), h.oneShot⟩
  obtain ⟨t, ht, rfl⟩ := List.mem_map.mp (h.kept sequence hused hasked)
  apply List.mem_map_of_mem
  rcases List.mem_append.mp ht with hlive | hfinished
  · exact List.mem_append_left _ (hkept t hlive hasked)
  · exact List.mem_append_right _ hfinished

end Places

/-- The timer objects that a pass does not restart stay as they are. -/
theorem TimerLog.restartAll_of_notMem {object : ℕ → Timer} {now : ℤ} {batch : List Timer} {address : ℕ}
    (h : address ∉ batch.map Timer.address) :
    restartAll object now batch address = object address := by
  induction batch generalizing object with
  | nil => rfl
  | cons t rest ih =>
    rw [List.map_cons, List.mem_cons, not_or] at h
    obtain ⟨hne, hrest⟩ := h
    unfold restartAll
    split
    · rw [ih hrest, Function.update_of_ne hne]
    · exact ih hrest

/-- A pass restarts its repeating timer objects. -/
theorem TimerLog.restartAll_of_mem {object : ℕ → Timer} {now : ℤ} {batch : List Timer}
    (hnodup : (batch.map Timer.address).Nodup) (hobject : ∀ t ∈ batch, object t.address = t)
    {t : Timer} (ht : t ∈ batch) (hrepeats : t.repeats = true) :
    restartAll object now batch t.address = t.restart now := by
  induction batch generalizing object with
  | nil => contradiction
  | cons first rest ih =>
    obtain ⟨hfirst, hrest⟩ := List.nodup_cons.mp hnodup
    rcases List.mem_cons.mp ht with rfl | hmem
    · rw [restartAll, hobject t ht, if_pos hrepeats, restartAll_of_notMem hfirst,
        Function.update_self]
    · unfold restartAll
      split
      · refine ih hrest (fun other hother => ?_) hmem
        have hne : other.address ≠ first.address :=
          fun heq => hfirst (heq ▸ List.mem_map_of_mem hother)
        rw [Function.update_of_ne hne]
        exact hobject other (List.mem_cons_of_mem _ hother)
      · exact ih hrest (fun other hother => hobject other (List.mem_cons_of_mem _ hother)) hmem

/-- The timers that a pass puts back. -/
def restarted (batch : List Timer) (now : ℤ) : List Timer :=
  (batch.filter Timer.repeats).map fun t => t.restart now

/-- Restarting changes no address. -/
theorem restarted_addresses (batch : List Timer) (now : ℤ) :
    (restarted batch now).map Timer.address = (batch.filter Timer.repeats).map Timer.address := by
  rw [restarted, List.map_map]
  exact List.map_congr_left fun t _ => (t.restart_identity now).1

/-- Restarting changes no sequence. -/
theorem restarted_sequences (batch : List Timer) (now : ℤ) :
    (restarted batch now).map Timer.sequence = (batch.filter Timer.repeats).map Timer.sequence := by
  rw [restarted, List.map_map]
  exact List.map_congr_left fun t _ => (t.restart_identity now).2

/-- Putting the repeating timers of a pass back and finishing the others keeps the places. -/
theorem Places.retire {rest batch finished : List Timer} {used asked : List ℕ} {object : ℕ → Timer}
    {now : ℤ} (h : Places (rest ++ batch) finished used asked object) :
    Places (rest ++ restarted batch now) (finished ++ batch.filter fun t => !t.repeats) used asked
      (TimerLog.restartAll object now batch) := by
  have hsequences : (((rest ++ restarted batch now) ++
      (finished ++ batch.filter fun t => !t.repeats)).map Timer.sequence).Perm
      (((rest ++ batch) ++ finished).map Timer.sequence) := by
    have hbatch := (List.filter_append_perm Timer.repeats batch).map Timer.sequence
    simp only [List.map_append, restarted_sequences] at hbatch ⊢
    refine (List.perm_append_comm.append_left _).trans ?_
    have hfront := (hbatch.append_left (rest.map Timer.sequence)).append_right
      (finished.map Timer.sequence)
    simpa only [List.append_assoc] using hfront
  have haddresses : ((rest ++ restarted batch now).map Timer.address).Sublist
      ((rest ++ batch).map Timer.address) := by
    rw [List.map_append, List.map_append, restarted_addresses]
    exact (List.filter_sublist.map _).append_left _
  refine ⟨h.addresses.sublist haddresses, hsequences.nodup_iff.mpr h.sequences,
    fun sequence hmem => h.made sequence (hsequences.subset hmem),
    fun sequence hused hasked => hsequences.symm.subset (h.kept sequence hused hasked),
    fun t ht => ?_, fun t ht => ?_⟩
  · obtain ⟨-, hbatch, hdisjoint⟩ := List.nodup_append.mp (List.map_append ▸ h.addresses)
    rcases List.mem_append.mp ht with hrest | hrestarted
    · rw [TimerLog.restartAll_of_notMem fun hmem =>
        hdisjoint _ (List.mem_map_of_mem hrest) _ hmem rfl]
      exact h.objects t (List.mem_append_left _ hrest)
    · obtain ⟨t, hfilter, rfl⟩ := List.mem_map.mp hrestarted
      obtain ⟨hmem, hrepeats⟩ := List.mem_filter.mp hfilter
      rw [(t.restart_identity now).1]
      exact TimerLog.restartAll_of_mem hbatch
        (fun t ht => h.objects t (List.mem_append_right _ ht)) hmem hrepeats
  · rcases List.mem_append.mp ht with hold | hnew
    · exact h.oneShot t hold
    · simpa using (List.mem_filter.mp hnew).2

namespace TimerQueue

variable {q : TimerQueue}

/-- Inserting a timer whose object is not in `timers` adds exactly the timer. -/
theorem insert_timers_perm {timer : Timer}
    (h : timer.address ∉ (q.timers.map Prod.snd).map Timer.address) :
    ((q.insert timer).timers.map Prod.snd).Perm (timer :: q.timers.map Prod.snd) := by
  rw [List.map_map] at h
  exact (insert_perm h).map Prod.snd

/-- The loop of `reset` adds exactly the restarted timers. -/
theorem reinsert_timers_perm {expired : List Entry} {now : ℤ}
    (h : ((expired.map Prod.snd ++ q.timers.map Prod.snd).map Timer.address).Nodup) :
    ((q.reinsert expired now).timers.map Prod.snd).Perm
      (restarted (expired.map Prod.snd) now ++ q.timers.map Prod.snd) := by
  induction expired generalizing q with
  | nil => exact List.Perm.refl _
  | cons e rest ih =>
    have hcons := h
    rw [List.map_cons, List.cons_append, List.map_cons, List.nodup_cons] at hcons
    obtain ⟨hfirst, hrest⟩ := hcons
    rw [reinsert_cons]
    split
    · rename_i hrepeats
      have hidentity := e.2.restart_identity now
      have hinsert : ((q.insert (e.2.restart now)).timers.map Prod.snd).Perm
          (e.2.restart now :: q.timers.map Prod.snd) := by
        refine insert_timers_perm fun hmem => hfirst ?_
        rw [List.map_append]
        exact List.mem_append_right _ (hidentity.1 ▸ hmem)
      have hperm : ((rest.map Prod.snd ++ (q.insert (e.2.restart now)).timers.map Prod.snd).map
          Timer.address).Perm (((e :: rest).map Prod.snd ++ q.timers.map Prod.snd).map Timer.address) := by
        refine ((hinsert.append_left _).trans List.perm_middle).map Timer.address |>.trans ?_
        rw [List.map_cons, hidentity.1]
        exact List.Perm.refl _
      have hfilter : restarted ((e :: rest).map Prod.snd) now =
          e.2.restart now :: restarted (rest.map Prod.snd) now := by
        simp [restarted, hrepeats]
      rw [hfilter]
      exact (ih (hperm.nodup_iff.mpr h)).trans ((hinsert.append_left _).trans List.perm_middle)
    · rename_i hrepeats
      have hfilter : restarted ((e :: rest).map Prod.snd) now = restarted (rest.map Prod.snd) now := by
        simp [restarted, hrepeats]
      rw [hfilter]
      exact ih hrest

end TimerQueue

/-- Queueing a functor that inserts no timer leaves the timers where they are. -/
theorem TimerView.queue_other (v : TimerView) {functor : TimerFunctor} (h : functor.timer? = none) :
    TimerView.live { v with waiting := v.waiting ++ [functor] } = v.live ∧
      TimerView.ahead { v with waiting := v.waiting ++ [functor] } = v.ahead := by
  have hinsertions : TimerView.insertions { v with waiting := v.waiting ++ [functor] } =
      v.insertions := by
    simp [insertions, h]
  exact ⟨congrArg (· ++ v.passing ++ v.inserted) hinsertions,
    congrArg (· ++ v.unreached ++ v.inserted) hinsertions⟩

/-- A quiet step leaves the history as it is. -/
theorem TimerLog.record_of_quiet {T : Type*} {label : TimerLabel T} (g : TimerLog) (v : TimerView)
    (h : label.quiet = true) : g.record v label = g := by
  cases label with
  | move | quit | queueTest | queueWake | quitTest | quitWake => rfl
  | queueInLoop | addTimer | cancel | expire | runNext | reset => contradiction

/-- The timers of a loop are in their places, and a waiting cancellation was asked for. -/
structure TimerLog.Placed (g : TimerLog) (v : TimerView) : Prop where
  places : Places v.live g.finished v.used g.asked g.object
  asked : ∀ sequence, .cancel sequence ∈ v.waiting → sequence ∈ g.asked

namespace TimerLog.Placed

variable {T : Type*} {g : TimerLog} {v v' : TimerView}

/-- Executing an insertion moves the timer into `timers`. -/
theorem insert {queue : TimerQueue} {timer : Timer} {rest : List TimerFunctor} {used : List ℕ}
    (h : g.Placed ⟨queue, none, .insert timer :: rest, used⟩) :
    g.Placed ⟨queue.insert timer, none, rest, used⟩ := by
  refine ⟨h.places.perm ?_, fun sequence hmem => h.asked sequence (List.mem_cons_of_mem _ hmem)⟩
  have hlive : TimerView.live ⟨queue, none, .insert timer :: rest, used⟩ =
      timer :: (rest.filterMap TimerFunctor.timer? ++ queue.timers.map Prod.snd) := by
    simp [TimerView.live, TimerView.insertions, TimerView.passing, TimerView.inserted,
      TimerFunctor.timer?]
  have hlive' : TimerView.live ⟨queue.insert timer, none, rest, used⟩ =
      rest.filterMap TimerFunctor.timer? ++ (queue.insert timer).timers.map Prod.snd := by
    simp [TimerView.live, TimerView.insertions, TimerView.passing, TimerView.inserted]
  have hnew : timer.address ∉ (queue.timers.map Prod.snd).map Timer.address := by
    have haddresses := h.places.addresses
    rw [hlive, List.map_cons, List.map_append] at haddresses
    exact fun hmem => (List.nodup_cons.mp haddresses).1 (List.mem_append_right _ hmem)
  rw [hlive, hlive']
  exact ((TimerQueue.insert_timers_perm hnew).append_left _).trans List.perm_middle

/-- Executing a cancellation takes out a timer that somebody asked to cancel. -/
theorem cancel {sequence : ℕ} (h : g.Placed v) (hasked : sequence ∈ g.asked) :
    g.Placed { v with queue := v.queue.cancel sequence } := by
  refine ⟨h.places.erase ?_ fun t ht hkept => ?_, h.asked⟩
  · exact (List.eraseP_sublist.map Prod.snd).append_left _
  · rcases List.mem_append.mp ht with hother | hinserted
    · exact List.mem_append_left _ hother
    · obtain ⟨e, he, rfl⟩ := List.mem_map.mp hinserted
      have hne : (e.2.sequence == sequence) = false := by
        rw [beq_eq_false_iff_ne]
        rintro rfl
        exact hkept hasked
      exact List.mem_append_right _ (List.mem_map_of_mem ((List.mem_eraseP_of_neg (by simp [hne])).mpr he))

/-- A pass takes its timers out of `timers`. -/
theorem expire {queue : TimerQueue} {waiting : List TimerFunctor} {used : List ℕ} {now : ℤ}
    (h : g.Placed ⟨queue, none, waiting, used⟩) :
    g.Placed ⟨(queue.getExpired now).2,
      some ⟨(queue.getExpired now).1, (queue.getExpired now).1, now, false⟩, waiting, used⟩ := by
  refine ⟨h.places.perm (List.Perm.of_eq ?_), h.asked⟩
  simp only [TimerView.live, TimerView.passing, TimerView.inserted, TimerView.insertions,
    Option.elim, List.append_nil, List.append_assoc]
  rw [← List.map_append, queue.getExpired_append now]

/-- `reset` adds exactly the restarted timers. -/
theorem reset_timers_perm {queue : TimerQueue} {batch : Batch} {waiting : List TimerFunctor}
    {used : List ℕ} (h : g.Placed ⟨queue, some batch, waiting, used⟩) (now : ℤ) :
    ((queue.reset batch.expired now).timers.map Prod.snd).Perm
      (restarted (batch.expired.map Prod.snd) now ++ queue.timers.map Prod.snd) := by
  rw [queue.reset_timers]
  refine TimerQueue.reinsert_timers_perm ?_
  have haddresses := h.places.addresses
  rw [TimerView.live, List.append_assoc, List.map_append] at haddresses
  exact (List.nodup_append.mp haddresses).2.1

/-- The end of a pass puts its repeating timers back and finishes the others. -/
theorem reset {queue : TimerQueue} {waiting : List TimerFunctor} {used : List ℕ} {now : ℤ}
    {expired : List Entry} {called : Bool}
    (h : g.Placed ⟨queue, some ⟨expired, [], now, called⟩, waiting, used⟩) :
    (g.record ⟨queue, some ⟨expired, [], now, called⟩, waiting, used⟩ (.reset : TimerLabel T)).Placed
      ⟨queue.reset expired now, none, waiting, used⟩ := by
  set insertions := waiting.filterMap TimerFunctor.timer?
  set batch := expired.map Prod.snd
  set inserted := queue.timers.map Prod.snd
  have hfront : (insertions ++ inserted ++ batch).Perm (insertions ++ batch ++ inserted) := by
    rw [List.append_assoc, List.append_assoc]
    exact List.perm_append_comm.append_left _
  have hlive : TimerView.live ⟨queue.reset expired now, none, waiting, used⟩ =
      insertions ++ (queue.reset expired now).timers.map Prod.snd :=
    congrArg (· ++ (queue.reset expired now).timers.map Prod.snd) (List.append_nil insertions)
  have hback : (insertions ++ (queue.reset expired now).timers.map Prod.snd).Perm
      (insertions ++ inserted ++ restarted batch now) := by
    rw [List.append_assoc]
    exact ((h.reset_timers_perm now).trans List.perm_append_comm).append_left _
  refine ⟨?_, h.asked⟩
  rw [hlive]
  exact ((h.places.perm hfront).retire).perm hback

/-- Every step keeps every timer in its one place. -/
theorem step {label : TimerLabel T} (h : g.Placed v) (hs : v.Step label v')
    (hadmits : g.admits v label) : (g.record v label).Placed v' := by
  cases hs with
  | quiet hquiet =>
    rw [g.record_of_quiet v hquiet]
    exact h
  | @call queue functor rest used =>
    have hrest : ∀ sequence, .cancel sequence ∈ rest → sequence ∈ g.asked :=
      fun sequence hmem => h.asked sequence (List.mem_cons_of_mem _ hmem)
    cases functor with
    | insert timer => exact h.insert
    | cancel sequence =>
      have hrest : g.Placed ⟨queue, none, rest, used⟩ := ⟨h.places, hrest⟩
      exact hrest.cancel (h.asked sequence List.mem_cons_self)
    | user => exact ⟨h.places, hrest⟩
  | queueInLoop =>
    refine ⟨?_, fun sequence hmem => ?_⟩
    · rw [(v.queue_other rfl).1]
      exact h.places
    · exact h.asked sequence (by simpa using hmem)
  | @addTimer _ _ timer hfresh =>
    refine ⟨?_, fun sequence hmem => h.asked sequence (by simpa using hmem)⟩
    refine (h.places.add hfresh hadmits).perm ?_
    simp only [TimerView.live, TimerView.insertions, TimerView.passing, TimerView.inserted,
      TimerFunctor.timer?, List.filterMap_append, List.filterMap_cons, List.filterMap_nil,
      List.append_assoc]
    exact List.perm_middle
  | @queueCancel _ _ sequence hused =>
    refine ⟨?_, fun other hmem => ?_⟩
    · rw [(v.queue_other rfl).1]
      exact h.places.ask sequence
    · rcases List.mem_append.mp hmem with hold | hnew
      · exact List.mem_cons_of_mem _ (h.asked other hold)
      · obtain rfl := TimerFunctor.cancel.inj (List.mem_singleton.mp hnew)
        exact List.mem_cons_self
  | @cancel _ t sequence hused =>
    have hasked : (g.record v (.cancel t sequence)).Placed v :=
      ⟨h.places.ask sequence, fun other hmem => List.mem_cons_of_mem _ (h.asked other hmem)⟩
    exact hasked.cancel List.mem_cons_self
  | expire => exact ⟨h.expire.places, h.asked⟩
  | runNext => exact ⟨h.places, h.asked⟩
  | reset => exact h.reset

end TimerLog.Placed

end CcMuduo
