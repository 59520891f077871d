import CcMuduo.EventLoopThread
import CcMuduo.Foundation.Ranking

/-!
# The destructor returns

When nobody but the destructor asks the loop to quit, and it does so once `loop()` has been entered, the
destructor always finds `loop_` set and joins, so the object with its mutex and its thread is not gone
before the new thread is. The join does not wait for ever either: as soon as the eventfd is written, the
new thread, left to itself, runs to its end within a number of steps that its state bounds, even if no
other event ever comes.
-/

namespace CcMuduo

open Foundation

variable {T F : Type*} [DecidableEq T]

namespace EventLoopThread

variable (owner creator : T) (s : EventLoopThread T F)

/-- The loop is asked to quit by the destructor only, and behind the entry of `loop()`. -/
def quitsOnce : EventLoopThreadLabel T F → Prop
  | .sys (.quit t) => t = creator ∧ s.creator = .quitting ∧ s.thread ≠ .published
  | _ => True

instance (label : EventLoopThreadLabel T F) : Decidable (s.quitsOnce creator label) :=
  match label with
  | .sys (.quit t) =>
    inferInstanceAs (Decidable (t = creator ∧ s.creator = .quitting ∧ s.thread ≠ .published))
  | .sys (.move _) | .sys (.queueInLoop _ _) | .sys (.queueTest _) | .sys (.queueWake _)
  | .sys (.quitTest _) | .sys (.quitWake _) | .startLoop | .publish | .startLoopReturns | .clear
  | .destroyLoop | .destroy | .callQuit | .join => inferInstanceAs (Decidable True)

/-- A step, where `poll` returns only because the eventfd is readable. -/
def stepAlone (s : EventLoopThread T F) : EventLoopThreadLabel T F → Option (EventLoopThread T F)
  | .sys (.move .poll) =>
    if 0 < s.sys.loop.wakeupCount then s.step owner creator (.sys (.move .poll)) else none
  | label => s.step owner creator label

/-- The next step of the loop thread in `loop()`. -/
def loopTurn : EventLoop.Move :=
  match s.sys.loop.pc with
  | .outside => .enter
  | .test => .test
  | .polling => .poll
  | .handling true => .handleRead
  | .handling false => .handled
  | .swapping => .swap
  | .running _ (_ :: _) => .call
  | .running _ [] => .finish

/-- The next step of the new thread: in a call on its loop, else in `threadFunc`. -/
def threadTurn : EventLoopThreadLabel T F :=
  match s.sys.calls owner with
  | .queueTest => .sys (.queueTest owner)
  | .queueWake => .sys (.queueWake owner)
  | .quitTest => .sys (.quitTest owner)
  | .quitWake => .sys (.quitWake owner)
  | .idle =>
    match s.thread with
    | .notStarted | .initializing => .publish
    | .published | .looping => .sys (.move s.loopTurn)
    | .returned => .clear
    | .cleared | .destroyed => .destroyLoop

/-- How many steps are left in a call. -/
def callRank : CallPc → ℕ
  | .idle => 0
  | .queueTest | .quitTest => 2
  | .queueWake | .quitWake => 1

/-- How many steps are left in an iteration of the loop that began with a request to quit. -/
def loopRank (loop : EventLoop T F) : ℕ :=
  match loop.pc with
  | .outside => 0
  | .test => 1
  | .running _ functors => functors.length + 2
  | .swapping => loop.pendingFunctors.length + 3
  | .handling false => loop.pendingFunctors.length + 4
  | .handling true => loop.pendingFunctors.length + 5
  | .polling => loop.pendingFunctors.length + 6

/-- How many steps the new thread has left. -/
def rank : ℕ :=
  callRank (s.sys.calls owner) +
    match s.thread with
    | .destroyed => 0
    | .cleared => 1
    | .returned => 2
    | .notStarted | .initializing | .published | .looping => loopRank s.sys.loop + 2

/-- What every step keeps while only the destructor asks the loop to quit: who has asked, and where the
two threads are before and behind the request. -/
structure QuitsOnce : Prop where
  quit : s.sys.loop.quit = true ↔ s.requested = true
  idle : s.creator = .idle → s.thread = .notStarted
  started : s.loop_ = true ∨ s.creator = .holding ∨ s.creator = .tested ∨ s.creator = .quitting →
    s.thread ≠ .notStarted ∧ s.thread ≠ .initializing
  early : s.requested = true →
    s.thread ≠ .notStarted ∧ s.thread ≠ .initializing ∧ s.thread ≠ .published
  late : s.requested = true → s.creator = .quitting ∨ s.creator = .joining ∨ s.creator = .finished
  asking : s.sys.calls creator = .quitTest ∨ s.sys.calls creator = .quitWake → s.requested = true
  joining : s.creator = .joining → s.requested = true
  left : s.thread = .returned ∨ s.thread = .cleared ∨ s.thread = .destroyed → s.requested = true
  published : s.thread = .published ∨ s.thread = .looping → s.loop_ = true
  looping : s.thread = .looping ↔ s.sys.loop.pc ≠ .outside
  calls : s.sys.calls owner ≠ .idle →
    (s.sys.calls owner = .queueTest ∨ s.sys.calls owner = .queueWake) ∧
      (s.thread = .initializing ∨ s.thread = .looping)
  finished : s.creator = .finished → s.thread = .destroyed

variable {owner creator s} {s' : EventLoopThread T F}

omit [DecidableEq T] in
/-- Outside `loop()` the loop is at no place of it. -/
theorem QuitsOnce.outside (h : s.QuitsOnce owner creator) (hthread : s.thread ≠ .looping) :
    s.sys.loop.pc = .outside := by
  by_contra hne
  exact hthread (h.looping.mpr hne)

omit [DecidableEq T] in
/-- Before `loop()` is entered nothing is requested. -/
theorem QuitsOnce.unasked (h : s.QuitsOnce owner creator)
    (hthread : s.thread = .notStarted ∨ s.thread = .initializing ∨ s.thread = .published) :
    s.requested = false := by
  by_contra hne
  obtain ⟨h₁, h₂, h₃⟩ := h.early (by simpa using hne)
  rcases hthread with h | h | h <;> contradiction

/-- A step of the loop thread in `loop()`. -/
theorem QuitsOnce.move (h : s.QuitsOnce owner creator) {m : EventLoop.Move}
    (hallow : s.allows owner creator (.move m) = true) (hidle : s.sys.calls owner = .idle)
    {loop : EventLoop T F} (hnext : s.sys.loop.next m = some loop) :
    (s.follow creator { s.sys with loop := loop } (.move m)).QuitsOnce owner creator := by
  have hcalls (thread : ThreadFuncPc) (hcall : s.sys.calls owner ≠ .idle) :
      (s.sys.calls owner = .queueTest ∨ s.sys.calls owner = .queueWake) ∧
        (thread = .initializing ∨ thread = .looping) := absurd hidle hcall
  have hspec := EventLoop.next_spec hnext
  cases m with
  | enter =>
    have hthread : s.thread = .published := by simpa [allows] using hallow
    obtain ⟨-, rfl⟩ := hspec
    have hreq := h.unasked (.inr (.inr hthread))
    have hpublished := h.published (.inl hthread)
    refine ⟨by simp [follow, hreq], fun hi => ?_, fun _ => by simp [follow], fun _ => by simp [follow],
      h.late, h.asking, h.joining, fun hl => by simp [follow] at hl, fun _ => hpublished,
      by simp [follow], hcalls _, fun hf => ?_⟩
    · exact absurd ((h.idle hi).symm.trans hthread) (by simp)
    · exact absurd ((h.finished hf).symm.trans hthread) (by simp)
  | test =>
    have hthread : s.thread = .looping := by simpa [allows] using hallow
    obtain ⟨-, rfl⟩ := hspec
    have hpublished := h.published (.inr hthread)
    have hnotIdle (hi : s.creator = .idle) : False :=
      absurd ((h.idle hi).symm.trans hthread) (by simp)
    have hnotFinished (hf : s.creator = .finished) : False :=
      absurd ((h.finished hf).symm.trans hthread) (by simp)
    by_cases hquit : s.sys.loop.quit = true
    · have hreq := h.quit.mp hquit
      exact ⟨h.quit, fun hi => (hnotIdle hi).elim, fun _ => by simp [follow, EventLoop.looping, hquit],
        fun _ => by simp [follow, EventLoop.looping, hquit], h.late, h.asking, h.joining, fun _ => hreq,
        fun _ => hpublished, by simp [follow, EventLoop.looping, hquit], hcalls _,
        fun hf => (hnotFinished hf).elim⟩
    · exact ⟨h.quit, fun hi => (hnotIdle hi).elim, fun _ => by simp [follow, EventLoop.looping, hquit],
        fun _ => by simp [follow, EventLoop.looping, hquit], h.late, h.asking, h.joining,
        fun hl => by simp [follow, EventLoop.looping, hquit] at hl, fun _ => hpublished,
        by simp [follow, EventLoop.looping, hquit], hcalls _, fun hf => (hnotFinished hf).elim⟩
  | poll | handleRead | handled | swap =>
    have hthread : s.thread = .looping := by simpa [allows] using hallow
    obtain ⟨-, rfl⟩ := hspec
    exact ⟨h.quit, h.idle, h.started, h.early, h.late, h.asking, h.joining, h.left, h.published,
      by simp [follow, hthread], hcalls _, h.finished⟩
  | call =>
    have hthread : s.thread = .looping := by simpa [allows] using hallow
    obtain ⟨called, e, rest, -, rfl⟩ := hspec
    exact ⟨h.quit, h.idle, h.started, h.early, h.late, h.asking, h.joining, h.left, h.published,
      by simp [follow, hthread], hcalls _, h.finished⟩
  | finish =>
    have hthread : s.thread = .looping := by simpa [allows] using hallow
    obtain ⟨called, -, rfl⟩ := hspec
    exact ⟨h.quit, h.idle, h.started, h.early, h.late, h.asking, h.joining, h.left, h.published,
      by simp [follow, hthread], hcalls _, h.finished⟩

/-- A step of a thread in a call that is none of a request to quit. -/
theorem QuitsOnce.of_call (h : s.QuitsOnce owner creator) {t : T} {pc : CallPc} {loop : EventLoop T F}
    (hquit : loop.quit = s.sys.loop.quit) (hpc : loop.pc = s.sys.loop.pc)
    (hasks : pc = .quitTest ∨ pc = .quitWake → t = creator → s.requested = true)
    (howner : t = owner → pc ≠ .idle → (pc = .queueTest ∨ pc = .queueWake) ∧
      (s.thread = .initializing ∨ s.thread = .looping)) :
    QuitsOnce owner creator { s with sys := ⟨loop, Function.update s.sys.calls t pc⟩ } := by
  refine ⟨hquit ▸ h.quit, h.idle, h.started, h.early, h.late, fun ha => ?_, h.joining, h.left,
    h.published, hpc ▸ h.looping, fun hcall => ?_, h.finished⟩
  · by_cases ht : creator = t
    · subst ht
      simp only [Function.update_self] at ha
      exact hasks ha rfl
    · simp only [Function.update_of_ne ht] at ha
      exact h.asking ha
  · by_cases ht : owner = t
    · subst ht
      simp only [Function.update_self] at hcall ⊢
      exact howner rfl hcall
    · simp only [Function.update_of_ne ht] at hcall ⊢
      exact h.calls hcall

omit [DecidableEq T] in
/-- The owner of the loop is in no request to quit. -/
theorem QuitsOnce.owner_calls (h : s.QuitsOnce owner creator) :
    s.sys.calls owner ≠ .quitTest ∧ s.sys.calls owner ≠ .quitWake := by
  constructor <;> intro hcall <;> simpa [hcall] using h.calls (by simp [hcall])

/-- A step of the loop or of a call on it. -/
theorem QuitsOnce.sys (hne : creator ≠ owner) (h : s.QuitsOnce owner creator)
    {label : LoopLabel T F} {sys : LoopSystem T F} (honce : s.quitsOnce creator (.sys label))
    (hallow : s.allows owner creator label = true) (hstep : s.sys.step owner label = some sys) :
    (s.follow creator sys label).QuitsOnce owner creator := by
  cases LoopSystem.step_spec hstep with
  | move hidle hnext => exact h.move hallow hidle hnext
  | @queueInLoop t cb hfree =>
    refine h.of_call rfl rfl (by simp) fun ht _ => ⟨.inl rfl, ?_⟩
    subst ht
    simpa [allows, mayCall, hne.symm] using hallow
  | @queueTest t ht =>
    refine h.of_call rfl rfl ?_ ?_
    · unfold EventLoop.afterQueueTest
      split <;> simp
    · rintro rfl hcall
      refine ⟨.inr ?_, (h.calls (by simp [ht])).2⟩
      revert hcall
      unfold EventLoop.afterQueueTest
      split <;> simp
  | @queueWake t loop ht hwake =>
    obtain rfl := EventLoop.wakeup_spec hwake
    exact h.of_call rfl rfl (by simp) (by simp)
  | @quit t hfree =>
    obtain ⟨rfl, hquitting, hthread⟩ := honce
    have hplace := h.started (.inr (.inr (.inr hquitting)))
    have habout : s.aboutToQuit = true := by simpa [allows, mayCall, hquitting] using hallow
    have hreq : (s.follow t ⟨s.sys.loop.setQuit, Function.update s.sys.calls t .quitTest⟩
        (.quit t)).requested = true := by simp [follow, habout]
    refine ⟨iff_of_true rfl hreq, h.idle, h.started, fun _ => ⟨hplace.1, hplace.2, hthread⟩,
      fun _ => .inl hquitting, fun _ => hreq, fun _ => hreq, fun _ => hreq, h.published, h.looping, ?_,
      h.finished⟩
    simpa [follow, Function.update_of_ne hne.symm] using h.calls
  | @quitTest t ht =>
    refine h.of_call rfl rfl ?_ ?_
    · rintro - rfl
      exact h.asking (.inl ht)
    · rintro rfl
      exact absurd ht h.owner_calls.1
  | @quitWake t loop ht hwake =>
    obtain rfl := EventLoop.wakeup_spec hwake
    have hnext : QuitsOnce owner creator { s with sys :=
        ⟨{ s.sys.loop with wakeupCount := s.sys.loop.wakeupCount + 1 },
          Function.update s.sys.calls t .idle⟩ } := h.of_call rfl rfl (by simp) (by simp)
    by_cases hjoin : t = creator ∧ s.creator = .quitting
    · have hreq : s.requested = true := h.asking (.inr (hjoin.1 ▸ ht))
      simp only [follow, if_pos hjoin]
      exact ⟨hnext.quit, (fun hi => by contradiction), fun _ => h.started (.inr (.inr (.inr hjoin.2))),
        h.early, fun _ => .inr (.inl rfl), hnext.asking, fun _ => hreq, h.left, h.published, h.looping,
        hnext.calls, (fun hf => by contradiction)⟩
    · simpa only [follow, if_neg hjoin] using hnext

omit [DecidableEq T] in
/-- The creating thread with the loop in hand has requested nothing. -/
theorem QuitsOnce.unasked_of_holding (h : s.QuitsOnce owner creator)
    (hholding : s.creator = .holding ∨ s.creator = .tested) : s.requested = false := by
  by_contra hne
  have hlate := h.late (by simpa using hne)
  rcases hholding with hc | hc <;> simp [hc] at hlate

omit [DecidableEq T] in
/-- It finds `loop_` set, both times. -/
theorem QuitsOnce.loop_of_holding (h : s.QuitsOnce owner creator)
    (hholding : s.creator = .holding ∨ s.creator = .tested) : s.loop_ = true := by
  have hreq := h.unasked_of_holding hholding
  obtain ⟨hstarted, hpublished⟩ := h.started (.inr (hholding.imp id .inl))
  cases hthread : s.thread with
  | notStarted => exact absurd hthread hstarted
  | initializing => exact absurd hthread hpublished
  | published => exact h.published (.inl hthread)
  | looping => exact h.published (.inr hthread)
  | returned | cleared | destroyed => simpa [hreq] using h.left (by simp [hthread])

/-- Every step keeps the invariant while only the destructor asks the loop to quit. -/
theorem QuitsOnce.step (hne : creator ≠ owner) (h : s.QuitsOnce owner creator)
    {label : EventLoopThreadLabel T F} (honce : s.quitsOnce creator label)
    (hstep : s.step owner creator label = some s') : s'.QuitsOnce owner creator := by
  have hspec := step_spec hstep
  cases label with
  | sys label =>
    obtain ⟨hallow, sys, hsys, rfl⟩ := hspec
    exact h.sys hne honce hallow hsys
  | startLoop =>
    obtain ⟨hcreator, rfl⟩ := hspec
    have hthread := h.idle hcreator
    have hreq := h.unasked (.inl hthread)
    have hpc := h.outside (by simp [hthread])
    have hloop : s.loop_ = false := by
      by_contra hne
      exact (h.started (.inl (by simpa using hne))).1 hthread
    exact ⟨h.quit, (fun hi => by contradiction), fun hs => by simp [hloop] at hs,
      fun hr => by simp [hreq] at hr, fun hr => by simp [hreq] at hr, h.asking,
      (fun hj => by contradiction), fun hl => by simp at hl, fun hp => by simp at hp,
      by simp [hpc], fun hc => ⟨(h.calls hc).1, .inl rfl⟩, (fun hf => by contradiction)⟩
  | publish =>
    obtain ⟨⟨hthread, hcall⟩, rfl⟩ := hspec
    have hreq := h.unasked (.inr (.inl hthread))
    have hpc := h.outside (by simp [hthread])
    exact ⟨h.quit, fun hi => absurd ((h.idle hi).symm.trans hthread) (by simp), fun _ => by simp,
      fun hr => by simp [hreq] at hr, h.late, h.asking, h.joining, fun hl => by simp at hl,
      fun _ => rfl, by simp [hpc], fun hc => absurd hcall hc,
      fun hf => absurd ((h.finished hf).symm.trans hthread) (by simp)⟩
  | startLoopReturns =>
    obtain ⟨⟨hcreator, hloop⟩, rfl⟩ := hspec
    exact ⟨h.quit, (fun hi => by contradiction), fun _ => h.started (.inl hloop), h.early,
      fun hr => by simpa [hcreator] using h.late hr, h.asking, (fun hj => by contradiction), h.left,
      h.published, h.looping, h.calls, (fun hf => by contradiction)⟩
  | clear =>
    obtain ⟨hthread, rfl⟩ := hspec
    have hreq := h.left (.inl hthread)
    have hpc := h.outside (by simp [hthread])
    exact ⟨h.quit, fun hi => absurd ((h.idle hi).symm.trans hthread) (by simp), fun _ => by simp,
      fun _ => by simp, h.late, h.asking, h.joining, fun _ => hreq, fun hp => by simp at hp,
      by simp [hpc], fun hc => by simpa [hthread] using h.calls hc,
      fun hf => absurd ((h.finished hf).symm.trans hthread) (by simp)⟩
  | destroyLoop =>
    obtain ⟨hthread, rfl⟩ := hspec
    have hreq := h.left (.inr (.inl hthread))
    have hpc := h.outside (by simp [hthread])
    exact ⟨h.quit, fun hi => absurd ((h.idle hi).symm.trans hthread) (by simp), fun _ => by simp,
      fun _ => by simp, h.late, h.asking, h.joining, fun _ => hreq, fun hp => by simp at hp,
      by simp [hpc], fun hc => by simpa [hthread] using h.calls hc, fun _ => rfl⟩
  | destroy =>
    obtain ⟨⟨hcreator, hcall⟩, rfl⟩ := hspec
    have hreq := h.unasked_of_holding (.inl hcreator)
    have hloop := h.loop_of_holding (.inl hcreator)
    simp only [hloop, if_true]
    exact ⟨h.quit, (fun hi => by contradiction), fun _ => h.started (.inr (.inl hcreator)), h.early,
      fun hr => by simp [hreq] at hr, h.asking, (fun hj => by contradiction), h.left, fun _ => rfl,
      h.looping, h.calls, (fun hf => by contradiction)⟩
  | callQuit =>
    obtain ⟨hcreator, rfl⟩ := hspec
    have hreq := h.unasked_of_holding (.inr hcreator)
    have hloop := h.loop_of_holding (.inr hcreator)
    simp only [hloop, if_true]
    exact ⟨h.quit, (fun hi => by contradiction), fun _ => h.started (.inr (.inr (.inl hcreator))),
      h.early, fun hr => by simp [hreq] at hr, h.asking, (fun hj => by contradiction), h.left,
      fun _ => rfl, h.looping, h.calls, (fun hf => by contradiction)⟩
  | join =>
    obtain ⟨⟨hcreator, hthread⟩, rfl⟩ := hspec
    exact ⟨h.quit, (fun hi => by contradiction), fun _ => by simp [hthread], h.early,
      fun _ => .inr (.inr rfl), h.asking, (fun hj => by contradiction), h.left, h.published, h.looping,
      h.calls, fun _ => hthread⟩

variable (owner creator s) in
/-- The destructor is in its join, with the request stored and the eventfd written, and a call that the
new thread is in can still write it. -/
structure Joining : Prop where
  once : s.QuitsOnce owner creator
  inv : s.Inv creator
  creator : s.creator = .joining
  wake : s.sys.calls owner = .idle ∨ s.sys.loop.wakeupCount < eventfdMax

/-- A step of the new thread that is no request and no entry of `loop()`. -/
theorem Joining.of_step (hne : creator ≠ owner) (h : s.Joining owner creator)
    {label : EventLoopThreadLabel T F} (honce : s.quitsOnce creator label)
    (hfirst : s.resetsFirst label) (hstep : s.step owner creator label = some s')
    (hcreator : s'.creator = s.creator)
    (hwake : s'.sys.calls owner = .idle ∨ s'.sys.loop.wakeupCount < eventfdMax) :
    s'.Joining owner creator :=
  ⟨h.once.step hne honce hstep, h.inv.step hfirst hstep, hcreator.trans h.creator, hwake⟩

/-- In a call, the new thread can go on, and has one step less to go. -/
theorem Joining.callTurn (hne : creator ≠ owner) (h : s.Joining owner creator)
    (hcall : s.sys.calls owner ≠ .idle) :
    ∃ s', s.stepAlone owner creator (s.threadTurn owner) = some s' ∧ s'.Joining owner creator ∧
      s'.rank owner < s.rank owner := by
  have hwake := h.wake.resolve_left hcall
  rcases (h.once.calls hcall).1 with htest | hwrite
  · have hstep : s.step owner creator (.sys (.queueTest owner)) = some { s with sys := { s.sys with
        calls := Function.update s.sys.calls owner (s.sys.loop.afterQueueTest (owner == owner)) } } := by
      simp [EventLoopThread.step, allows, LoopSystem.step, htest, follow]
    have honce : s.quitsOnce creator (.sys (.queueTest owner)) := trivial
    refine ⟨_, ?_, h.of_step hne honce trivial hstep rfl (.inr hwake), ?_⟩
    · simpa [threadTurn, htest, stepAlone] using hstep
    · have hless : callRank (s.sys.loop.afterQueueTest (owner == owner)) < callRank .queueTest := by
        unfold EventLoop.afterQueueTest
        split <;> decide
      simp only [rank, Function.update_self, htest]
      omega
  · have hwakeup : s.sys.loop.wakeup =
        some { s.sys.loop with wakeupCount := s.sys.loop.wakeupCount + 1 } := if_pos hwake
    have hstep : s.step owner creator (.sys (.queueWake owner)) = some { s with sys :=
        ⟨{ s.sys.loop with wakeupCount := s.sys.loop.wakeupCount + 1 },
          Function.update s.sys.calls owner .idle⟩ } := by
      simp [EventLoopThread.step, allows, LoopSystem.step, hwrite, follow, hwakeup]
    have honce : s.quitsOnce creator (.sys (.queueWake owner)) := trivial
    refine ⟨_, ?_, h.of_step hne honce trivial hstep rfl (.inl (Function.update_self ..)), ?_⟩
    · simpa [threadTurn, hwrite, stepAlone] using hstep
    · have hsame : loopRank { s.sys.loop with wakeupCount := s.sys.loop.wakeupCount + 1 } =
          loopRank s.sys.loop := rfl
      simp only [rank, Function.update_self, hwrite, hsame, callRank]
      omega

/-- In `loop()`, the new thread can go on, and has one step less to go. -/
theorem Joining.loopTurn (hne : creator ≠ owner) (h : s.Joining owner creator)
    (hcall : s.sys.calls owner = .idle) (hthread : s.thread = .looping) :
    ∃ s', s.stepAlone owner creator (s.threadTurn owner) = some s' ∧ s'.Joining owner creator ∧
      s'.rank owner < s.rank owner := by
  have hquit := h.once.quit.mpr (h.once.joining h.creator)
  have hturn : s.threadTurn owner = .sys (.move s.loopTurn) := by
    simp [threadTurn, hcall, hthread]
  have honce (m : EventLoop.Move) : s.quitsOnce creator (.sys (.move m)) := trivial
  -- a step of the loop, other than its entry
  have of_next {m : EventLoop.Move} {loop : EventLoop T F} (hm : s.loopTurn = m)
      (henter : m ≠ .enter) (hpoll : m = .poll → 0 < s.sys.loop.wakeupCount)
      (hnext : s.sys.loop.next m = some loop)
      (hless : (s.follow creator { s.sys with loop := loop } (.move m)).rank owner < s.rank owner) :
      ∃ s', s.stepAlone owner creator (s.threadTurn owner) = some s' ∧ s'.Joining owner creator ∧
        s'.rank owner < s.rank owner := by
    have hstep : s.step owner creator (.sys (.move m)) =
        some (s.follow creator { s.sys with loop := loop } (.move m)) := by
      have hallow : s.allows owner creator (.move m) = true := by
        cases m <;> simp_all [allows]
      simp [EventLoopThread.step, hallow, LoopSystem.step, hcall, hnext]
    refine ⟨_, ?_, h.of_step hne (honce m) ?_ hstep ?_ (.inl ?_), hless⟩
    · rw [hturn, hm]
      cases m <;> simp_all [stepAlone]
    · cases m <;> simp_all [resetsFirst]
    · cases m <;> rfl
    · cases m <;> exact hcall
  cases hpc : s.sys.loop.pc with
  | outside => exact absurd hpc (h.once.looping.mp hthread)
  | test =>
    refine of_next (m := .test) (by simp [EventLoopThread.loopTurn, hpc]) (by simp) (by simp)
      (by simp [EventLoop.next, hpc]; rfl) ?_
    simp [rank, follow, EventLoop.looping, hquit, hthread, loopRank, hpc]
  | polling =>
    have hawake := h.inv.awake h.creator hpc
    refine of_next (m := .poll) (by simp [EventLoopThread.loopTurn, hpc]) (by simp) (fun _ => hawake)
      (by simp [EventLoop.next, hpc]; rfl) ?_
    simp [rank, follow, hthread, loopRank, hpc, hawake]
  | handling active =>
    cases active with
    | true =>
      refine of_next (m := .handleRead) (by simp [EventLoopThread.loopTurn, hpc]) (by simp) (by simp)
        (by simp [EventLoop.next, hpc]; rfl) ?_
      simp [rank, follow, hthread, loopRank, hpc, EventLoop.handleRead]
    | false =>
      refine of_next (m := .handled) (by simp [EventLoopThread.loopTurn, hpc]) (by simp) (by simp)
        (by simp [EventLoop.next, hpc]; rfl) ?_
      simp [rank, follow, hthread, loopRank, hpc]
  | swapping =>
    refine of_next (m := .swap) (by simp [EventLoopThread.loopTurn, hpc]) (by simp) (by simp)
      (by simp [EventLoop.next, hpc]; rfl) ?_
    simp [rank, follow, hthread, loopRank, hpc]
  | running called functors =>
    cases functors with
    | nil =>
      refine of_next (m := .finish) (by simp [EventLoopThread.loopTurn, hpc]) (by simp) (by simp)
        (by simp [EventLoop.next, hpc]; rfl) ?_
      simp [rank, follow, hthread, loopRank, hpc]
    | cons f rest =>
      refine of_next (m := .call) (by simp [EventLoopThread.loopTurn, hpc]) (by simp) (by simp)
        (by simp [EventLoop.next, hpc]; rfl) ?_
      simp [rank, follow, hthread, loopRank, hpc]

/-- As long as the new thread has not ended it can go on, and has one step less to go. -/
theorem Joining.turn (hne : creator ≠ owner) (h : s.Joining owner creator)
    (hthread : ¬ s.thread = .destroyed) :
    ∃ s', s.stepAlone owner creator (s.threadTurn owner) = some s' ∧ s'.Joining owner creator ∧
      s'.rank owner < s.rank owner := by
  by_cases hcall : s.sys.calls owner = .idle
  · cases hplace : s.thread with
    | notStarted | initializing | published =>
      have hearly := h.once.early (h.once.joining h.creator)
      simp [hplace] at hearly
    | looping => exact h.loopTurn hne hcall hplace
    | returned =>
      have hstep : s.step owner creator .clear = some { s with loop_ := false, thread := .cleared } :=
        if_pos hplace
      have honce : s.quitsOnce creator .clear := trivial
      refine ⟨_, ?_, h.of_step hne honce trivial hstep rfl (.inl hcall), ?_⟩
      · simpa [threadTurn, hcall, hplace, stepAlone] using hstep
      · simp [rank, hplace]
    | cleared =>
      have hstep : s.step owner creator .destroyLoop = some { s with thread := .destroyed } :=
        if_pos hplace
      have honce : s.quitsOnce creator .destroyLoop := trivial
      refine ⟨_, ?_, h.of_step hne honce trivial hstep rfl (.inl hcall), ?_⟩
      · simpa [threadTurn, hcall, hplace, stepAlone] using hstep
      · simp [rank, hplace]
    | destroyed => exact absurd hplace hthread
  · exact h.callTurn hne hcall

omit [DecidableEq T] in
/-- Behind the constructor nothing has happened. -/
theorem constructed_quitsOnce : (constructed : EventLoopThread T F).QuitsOnce owner creator := by
  constructor <;> simp [constructed, LoopSystem.constructed, EventLoop.constructed]

omit [DecidableEq T] in
/-- Behind the constructor nothing is requested. -/
theorem constructed_inv : (constructed : EventLoopThread T F).Inv creator := by
  constructor <;> simp [constructed]

end EventLoopThread

/-- When only the destructor asks the loop to quit, and behind the entry of `loop()`, the object is not
gone before its thread is, and whenever the destructor joins, the new thread, left to itself, ends within
the bound, and the join returns. -/
theorem destructor_returns (owner creator : T) (hne : creator ≠ owner)
    (labels : List (EventLoopThreadLabel T F))
    (h : Along (EventLoopThread.step owner creator) (EventLoopThread.quitsOnce creator) .constructed
      labels) :
    Everywhere (EventLoopThread.step owner creator)
      (fun s => (s.creator = .finished → s.thread = .destroyed) ∧
        (s.creator = .joining → s.sys.loop.wakeupCount < eventfdMax →
          ∃ n ≤ s.rank owner, ∃ t, drive (EventLoopThread.stepAlone owner creator)
            (EventLoopThread.threadTurn owner) n s = some t ∧
              (t.step owner creator .join).isSome = true))
      .constructed labels := by
  have hfirst (s : EventLoopThread T F) (label : EventLoopThreadLabel T F)
      (hs : s.QuitsOnce owner creator) (s' : EventLoopThread T F)
      (hstep : s.step owner creator label = some s') : s.resetsFirst label := by
    unfold EventLoopThread.resetsFirst
    split
    · obtain ⟨hallow, -⟩ := EventLoopThread.step_spec hstep
      exact hs.unasked (.inr (.inr (by simpa [EventLoopThread.allows] using hallow)))
    · trivial
  refine everywhere_of_along
    (I := fun s => s.QuitsOnce owner creator ∧ s.Inv creator) (fun s hs => ⟨hs.1.finished, ?_⟩)
    (fun s label s' hs honce hstep =>
      ⟨hs.1.step hne honce hstep, hs.2.step (hfirst s label hs.1 s' hstep) hstep⟩) ?_ h
  · exact ⟨EventLoopThread.constructed_quitsOnce, EventLoopThread.constructed_inv⟩
  · intro hjoining hwake
    obtain ⟨n, hn, t, hdrive, ht, hdone⟩ := drive_of_rank
      (I := fun s : EventLoopThread T F => s.Joining owner creator)
      (fun s hs hthread => hs.turn hne hthread) ⟨hs.1, hs.2, hjoining, .inr hwake⟩
    refine ⟨n, hn, t, hdrive, ?_⟩
    simp [EventLoopThread.step, ht.creator, hdone]

/-- A functor is queued, and the object is destroyed while the loop is in `poll`. -/
theorem destructor_returns_behind_functor :
    Everywhere (EventLoopThread.step true false)
      (fun s => (s.creator = .finished → s.thread = .destroyed) ∧
        (s.creator = .joining → s.sys.loop.wakeupCount < eventfdMax →
          ∃ n ≤ s.rank true, ∃ t, drive (EventLoopThread.stepAlone true false)
            (EventLoopThread.threadTurn true) n s = some t ∧
              (t.step true false .join).isSome = true))
      (EventLoopThread.constructed (F := ℕ))
      [.startLoop, .publish, .startLoopReturns, .sys (.move .enter), .sys (.move .test),
        .sys (.queueInLoop false 7), .sys (.queueTest false), .sys (.queueWake false), .destroy,
        .callQuit, .sys (.quit false), .sys (.quitTest false), .sys (.quitWake false)] :=
  destructor_returns true false (by decide) _ (by decide)

end CcMuduo
