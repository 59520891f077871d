import CcMuduo.CurrentThread
import CcMuduo.EventLoop
import CcMuduo.Foundation.Run

/-!
# Thread confinement

Any number of threads and event loops. Each loop is constructed by a thread of its own, which also
runs it, and every thread may call `runInLoop`, `queueInLoop`, `quit` and `assertInLoopThread` on
every loop. What these calls decide by `isInLoopThread()` is recorded with the calling thread and
the thread that constructed the loop.

`isInLoopThread()` compares two thread ids that are both `0`, so it is true for every caller. It is
right exactly for the thread that constructed the loop.
-/

namespace CcMuduo

open Foundation

variable {T L F : Type} [DecidableEq T] [DecidableEq L]

/-- What a call decided: the answer of `isInLoopThread`, a functor executed, whether
`assertInLoopThread` threw, whether `queueInLoop` or `quit` goes on to write the wakeup. -/
inductive Decision where
  | isInLoopThread (answer : Bool)
  | executed
  | asserted (threw : Bool)
  | wakes (answer : Bool)
  deriving DecidableEq, Repr

/-- A decision, with the thread that made it and the one that constructed the loop. -/
structure Observation (T : Type) where
  caller : T
  creator : T
  decision : Decision

/-- The decision a loop confined to its thread makes. -/
def Observation.right (o : Observation T) : Prop :=
  match o.decision with
  | .isInLoopThread answer => answer = true ↔ o.caller = o.creator
  | .executed => o.caller = o.creator
  | .asserted threw => o.caller ≠ o.creator → threw = true
  | .wakes answer => o.caller ≠ o.creator → answer = true

instance : DecidablePred (Observation.right (T := T)) := fun o =>
  match o with
  | ⟨caller, creator, .isInLoopThread answer⟩ =>
    inferInstanceAs (Decidable (answer = true ↔ caller = creator))
  | ⟨caller, creator, .executed⟩ => inferInstanceAs (Decidable (caller = creator))
  | ⟨caller, creator, .asserted threw⟩ =>
    inferInstanceAs (Decidable (caller ≠ creator → threw = true))
  | ⟨caller, creator, .wakes answer⟩ =>
    inferInstanceAs (Decidable (caller ≠ creator → answer = true))

/-- An `EventLoop` object: the thread that constructed it, `threadId`, and the rest. -/
structure LoopObject (T F : Type) where
  creator : T
  threadId : ℕ
  loop : EventLoop T F

/-- All threads and loops of the process. `loopInThisThread` is the thread-local pointer, and `calls`
says on which loop a thread is in `queueInLoop` or `quit`, and where. -/
structure Threads (T L F : Type) where
  cachedTid : T → ℕ
  loopInThisThread : T → Option L
  loops : L → Option (LoopObject T F)
  calls : T → Option (L × CallPc)
  log : List (Observation T)

/-- A step of a thread. -/
inductive ThreadLabel (T L F : Type) where
  | construct (t : T) (l : L)
  | move (l : L) (m : EventLoop.Move)
  | runInLoop (t : T) (l : L) (cb : F)
  | queueInLoop (t : T) (l : L) (cb : F)
  | queueTest (t : T) (l : L)
  | queueWake (t : T) (l : L)
  | quit (t : T) (l : L)
  | quitTest (t : T) (l : L)
  | quitWake (t : T) (l : L)
  | assertInLoopThread (t : T) (l : L)

namespace Threads

/-- No loop exists, and no thread has asked for its id. -/
def initial : Threads T L F := ⟨fun _ => 0, fun _ => none, fun _ => none, fun _ => none, []⟩

variable (k : Kernel T) (s : Threads T L F)

/-- May the thread start a call? A thread inside its own loop can only in user code. -/
def free (t : T) : Bool :=
  (s.calls t).isNone &&
    ((s.loopInThisThread t).bind s.loops).all fun o => o.loop.inUserCode

/-- `isInLoopThread()` on a loop, with the decision it leads to. -/
def decided (t : T) (o : LoopObject T F) (next : Bool → List Decision) : Threads T L F :=
  let id := CurrentThread.tid k (s.cachedTid t)
  let answer := o.threadId == id
  { s with
    cachedTid := Function.update s.cachedTid t id
    log := s.log ++ (.isInLoopThread answer :: next answer).map (Observation.mk t o.creator) }

/-- The answer of `isInLoopThread()`. -/
def isInLoopThread (t : T) (o : LoopObject T F) : Bool :=
  o.threadId == CurrentThread.tid k (s.cachedTid t)

/-- Put back the state of a loop. -/
def setLoop (l : L) (o : LoopObject T F) (loop : EventLoop T F) : Threads T L F :=
  { s with loops := Function.update s.loops l (some { o with loop := loop }) }

/-- The thread is at a place of a call on the loop, or in no call any more. -/
def setCall (t : T) (l : L) (pc : CallPc) : Threads T L F :=
  { s with calls := Function.update s.calls t (if pc = .idle then none else some (l, pc)) }

/-- One step. A second loop in a thread is fatal. -/
def step (s : Threads T L F) : ThreadLabel T L F → Option (Threads T L F)
  | .construct t l =>
    if s.free t ∧ s.loops l = none ∧ s.loopInThisThread t = none then
      let id := CurrentThread.tid k (s.cachedTid t)
      some { s with
        cachedTid := Function.update s.cachedTid t id
        loopInThisThread := Function.update s.loopInThisThread t (some l)
        loops := Function.update s.loops l (some ⟨t, id, .constructed⟩) }
    else none
  | .move l m => do
    let o ← s.loops l
    if s.calls o.creator = none then
      let loop ← o.loop.next m
      let s₁ := s.setLoop l o loop
      if m = .call then some { s₁ with log := s₁.log ++ [⟨o.creator, o.creator, .executed⟩] }
      else some s₁
    else none
  | .runInLoop t l cb => do
    let o ← s.loops l
    if s.free t then
      if s.isInLoopThread k t o then some (s.decided k t o fun _ => [.executed])
      else some (((s.decided k t o fun _ => []).setLoop l o (o.loop.enqueue t cb)).setCall t l .queueTest)
    else none
  | .queueInLoop t l cb => do
    let o ← s.loops l
    if s.free t then some ((s.setLoop l o (o.loop.enqueue t cb)).setCall t l .queueTest) else none
  | .queueTest t l => do
    let o ← s.loops l
    if s.calls t = some (l, .queueTest) then
      let pc := o.loop.afterQueueTest (s.isInLoopThread k t o)
      some ((s.decided k t o fun _ => [.wakes (pc == .queueWake)]).setCall t l pc)
    else none
  | .queueWake t l => do
    let o ← s.loops l
    if s.calls t = some (l, .queueWake) then
      let loop ← o.loop.wakeup
      some ((s.setLoop l o loop).setCall t l .idle)
    else none
  | .quit t l => do
    let o ← s.loops l
    if s.free t then some ((s.setLoop l o o.loop.setQuit).setCall t l .quitTest) else none
  | .quitTest t l => do
    let o ← s.loops l
    if s.calls t = some (l, .quitTest) then
      let pc := EventLoop.afterQuitTest (s.isInLoopThread k t o)
      some ((s.decided k t o fun _ => [.wakes (pc == .quitWake)]).setCall t l pc)
    else none
  | .quitWake t l => do
    let o ← s.loops l
    if s.calls t = some (l, .quitWake) then
      let loop ← o.loop.wakeup
      some ((s.setLoop l o loop).setCall t l .idle)
    else none
  | .assertInLoopThread t l => do
    let o ← s.loops l
    if s.free t then some (s.decided k t o fun answer => [.asserted !answer]) else none

/-- Every decision so far was right. -/
def Confined : Prop := ∀ o ∈ s.log, o.right

instance : DecidablePred (Confined (T := T) (L := L) (F := F)) := fun s =>
  inferInstanceAs (Decidable (∀ o ∈ s.log, o.right))

/-- The calls that ask `isInLoopThread()` come from the thread that constructed the loop. -/
def fromCreator (s : Threads T L F) : ThreadLabel T L F → Prop
  | .runInLoop t l _ | .queueTest t l | .quitTest t l | .assertInLoopThread t l =>
    ∀ o, s.loops l = some o → t = o.creator
  | _ => True

/-- No thread's cache is filled, and every loop was constructed with the id `0`. -/
structure Unfilled (s : Threads T L F) : Prop where
  cachedTid : ∀ t, s.cachedTid t = 0
  threadId : ∀ l o, s.loops l = some o → o.threadId = 0

namespace Unfilled

variable {k s} {t : T} {l : L} {o : LoopObject T F}

omit [DecidableEq T] [DecidableEq L] in
/-- `isInLoopThread()` is true for every caller. -/
theorem isInLoopThread_eq (h : s.Unfilled) (ho : s.loops l = some o) :
    s.isInLoopThread k t o = true := by
  rw [isInLoopThread, h.cachedTid, h.threadId l o ho]
  rfl

omit [DecidableEq L] in
/-- Asking for the id fills no cache. -/
theorem decided (h : s.Unfilled) {next : Bool → List Decision} : (s.decided k t o next).Unfilled := by
  refine ⟨fun t' => ?_, h.threadId⟩
  change Function.update s.cachedTid t (CurrentThread.tid k (s.cachedTid t)) t' = 0
  rw [h.cachedTid, CurrentThread.tid_zero]
  by_cases ht : t' = t
  · rw [ht, Function.update_self]
  · rw [Function.update_of_ne ht, h.cachedTid]

omit [DecidableEq T] in
/-- A step of a loop keeps its thread id. -/
theorem setLoop (h : s.Unfilled) (ho : s.loops l = some o) (loop : EventLoop T F) :
    (s.setLoop l o loop).Unfilled := by
  refine ⟨h.cachedTid, fun l' o' ho' => ?_⟩
  by_cases hl : l' = l
  · subst hl
    simp only [Threads.setLoop, Function.update_self, Option.some.injEq] at ho'
    subst ho'
    exact h.threadId _ o ho
  · exact h.threadId l' o' (by simpa [Threads.setLoop, hl] using ho')

omit [DecidableEq L] in
/-- The place of a thread in its calls has nothing to do with ids. -/
theorem setCall (h : s.Unfilled) (pc : CallPc) : (s.setCall t l pc).Unfilled :=
  ⟨h.cachedTid, h.threadId⟩

/-- A new loop gets the id `0`, like every other. -/
theorem construct (h : s.Unfilled) (hs : s.step k (.construct t l) = some s') : s'.Unfilled := by
  obtain ⟨-, hs⟩ := Option.ite_none_right_eq_some.mp hs
  obtain rfl := Option.some.inj hs
  have hid : CurrentThread.tid k (s.cachedTid t) = 0 := by rw [h.cachedTid, CurrentThread.tid_zero]
  refine ⟨fun t' => ?_, fun l' o' ho' => ?_⟩
  · by_cases ht : t' = t
    · simp [ht, hid]
    · simp [ht, h.cachedTid]
  · by_cases hl : l' = l
    · subst hl
      simp only [Function.update_self, Option.some.injEq] at ho'
      rw [← ho']
      exact hid
    · exact h.threadId l' o' (by simpa [hl] using ho')

omit [DecidableEq L] in
/-- The decision for the loop's own thread is right for the thread that constructed the loop, and the
answer of `isInLoopThread()` behind it is wrong for every other. -/
theorem confined_decided_iff (h : s.Unfilled) (hconfined : s.Confined) (ho : s.loops l = some o)
    {next : Bool → List Decision}
    (hnext : t = o.creator → ∀ d ∈ next true, (Observation.mk t o.creator d).right) :
    (s.decided k t o next).Confined ↔ ∀ o', s.loops l = some o' → t = o'.creator := by
  have hlog : (s.decided k t o next).log =
      s.log ++ (.isInLoopThread true :: next true).map (Observation.mk t o.creator) := by
    rw [Threads.decided, ← isInLoopThread_eq (k := k) (t := t) h ho]
    rfl
  have hiff : (∀ o', s.loops l = some o' → t = o'.creator) ↔ t = o.creator := by
    simp [ho]
  rw [hiff, Confined, hlog]
  refine ⟨fun hall => ?_, fun ht obs hobs => ?_⟩
  · have := hall ⟨t, o.creator, .isInLoopThread true⟩ (by simp)
    simpa [Observation.right] using this
  · rcases List.mem_append.mp hobs with hold | hnew
    · exact hconfined obs hold
    · obtain ⟨d, hd, rfl⟩ := List.mem_map.mp hnew
      rcases List.mem_cons.mp hd with rfl | hd
      · simpa [Observation.right] using ht
      · exact hnext ht d hd

end Unfilled

omit [DecidableEq L] in
/-- The place of a thread in its calls is no decision. -/
theorem confined_setCall {s : Threads T L F} {t : T} {l : L} {pc : CallPc} :
    (s.setCall t l pc).Confined ↔ s.Confined := Iff.rfl

/-- One step on a confined system keeps it confined exactly when only the thread that constructed the
loop asks for `isInLoopThread()`. -/
theorem step_confined_iff {k : Kernel T} {s s' : Threads T L F} {label : ThreadLabel T L F}
    (h : s.Unfilled) (hconfined : s.Confined) (hstep : s.step k label = some s') :
    s'.Unfilled ∧ (s'.Confined ↔ s.fromCreator label) := by
  cases label with
  | construct t l =>
    refine ⟨h.construct hstep, iff_of_true ?_ trivial⟩
    obtain ⟨-, hs⟩ := Option.ite_none_right_eq_some.mp hstep
    obtain rfl := Option.some.inj hs
    exact hconfined
  | move l m =>
    obtain ⟨o, ho, hs⟩ := Option.bind_eq_some_iff.mp hstep
    obtain ⟨-, hs⟩ := Option.ite_none_right_eq_some.mp hs
    obtain ⟨loop, -, hs⟩ := Option.bind_eq_some_iff.mp hs
    have h' := h.setLoop ho loop
    split at hs
    · obtain rfl := Option.some.inj hs
      refine ⟨⟨h'.cachedTid, h'.threadId⟩, iff_of_true (fun obs hobs => ?_) trivial⟩
      rcases List.mem_append.mp hobs with hold | hnew
      · exact hconfined obs hold
      · rw [List.mem_singleton.mp hnew]
        exact rfl
    · obtain rfl := Option.some.inj hs
      exact ⟨h', iff_of_true hconfined trivial⟩
  | runInLoop t l cb =>
    obtain ⟨o, ho, hs⟩ := Option.bind_eq_some_iff.mp hstep
    obtain ⟨-, hs⟩ := Option.ite_none_right_eq_some.mp hs
    rw [h.isInLoopThread_eq ho, if_pos rfl] at hs
    obtain rfl := Option.some.inj hs
    exact ⟨h.decided, h.confined_decided_iff hconfined ho (by simp [Observation.right])⟩
  | queueTest t l =>
    obtain ⟨o, ho, hs⟩ := Option.bind_eq_some_iff.mp hstep
    obtain ⟨-, hs⟩ := Option.ite_none_right_eq_some.mp hs
    obtain rfl := Option.some.inj hs
    refine ⟨h.decided.setCall _, ?_⟩
    rw [confined_setCall]
    exact h.confined_decided_iff hconfined ho (by simp +contextual [Observation.right])
  | quitTest t l =>
    obtain ⟨o, ho, hs⟩ := Option.bind_eq_some_iff.mp hstep
    obtain ⟨-, hs⟩ := Option.ite_none_right_eq_some.mp hs
    obtain rfl := Option.some.inj hs
    refine ⟨h.decided.setCall _, ?_⟩
    rw [confined_setCall]
    exact h.confined_decided_iff hconfined ho (by simp +contextual [Observation.right])
  | assertInLoopThread t l =>
    obtain ⟨o, ho, hs⟩ := Option.bind_eq_some_iff.mp hstep
    obtain ⟨-, hs⟩ := Option.ite_none_right_eq_some.mp hs
    obtain rfl := Option.some.inj hs
    exact ⟨h.decided, h.confined_decided_iff hconfined ho (by simp +contextual [Observation.right])⟩
  | queueInLoop t l cb =>
    obtain ⟨o, ho, hs⟩ := Option.bind_eq_some_iff.mp hstep
    obtain ⟨-, hs⟩ := Option.ite_none_right_eq_some.mp hs
    obtain rfl := Option.some.inj hs
    exact ⟨(h.setLoop ho _).setCall _, iff_of_true hconfined trivial⟩
  | quit t l =>
    obtain ⟨o, ho, hs⟩ := Option.bind_eq_some_iff.mp hstep
    obtain ⟨-, hs⟩ := Option.ite_none_right_eq_some.mp hs
    obtain rfl := Option.some.inj hs
    exact ⟨(h.setLoop ho _).setCall _, iff_of_true hconfined trivial⟩
  | queueWake t l | quitWake t l =>
    obtain ⟨o, ho, hs⟩ := Option.bind_eq_some_iff.mp hstep
    obtain ⟨-, hs⟩ := Option.ite_none_right_eq_some.mp hs
    obtain ⟨loop, -, hs⟩ := Option.bind_eq_some_iff.mp hs
    obtain rfl := Option.some.inj hs
    exact ⟨(h.setLoop ho _).setCall _, iff_of_true hconfined trivial⟩

end Threads

/-- Every decision of a run is right exactly when only the thread that constructed a loop ever asks it
for `isInLoopThread()`. -/
theorem confined_iff_fromCreator (k : Kernel T) (labels : List (ThreadLabel T L F)) :
    Everywhere (Threads.step k) Threads.Confined .initial labels ↔
      Along (Threads.step k) Threads.fromCreator .initial labels := by
  refine everywhere_iff_along (I := fun s : Threads T L F => s.Unfilled ∧ s.Confined)
    (fun s h => h.2) ?_ ?_ labels
    ⟨⟨fun _ => rfl, by simp [Threads.initial]⟩, by simp [Threads.initial, Threads.Confined]⟩
  · intro s label s' hs hcreator hstep
    obtain ⟨h, hconfined⟩ := hs
    obtain ⟨h', hiff⟩ := Threads.step_confined_iff h hconfined hstep
    exact ⟨h', hiff.mpr hcreator⟩
  · intro s label s' hs hcreator hstep hconfined'
    obtain ⟨h, hconfined⟩ := hs
    exact hcreator ((Threads.step_confined_iff h hconfined hstep).2.mp hconfined')

/-- Two threads with the ids `100` and `101`. -/
def Kernel.two : Kernel Bool where
  gettid := fun t => if t then 101 else 100
  getgid := 1000
  gettid_ne_zero := by decide
  gettid_injective := by
    intro t t' h
    cases t <;> cases t' <;> simp_all

/-- A functor that one thread gives to the loop of another runs on the thread that gave it. -/
theorem confined_runInLoop :
    ¬ Everywhere (Threads.step Kernel.two) Threads.Confined (Threads.initial (L := Unit) (F := ℕ))
      [.construct false (), .runInLoop true () 7] := by
  decide

end CcMuduo
