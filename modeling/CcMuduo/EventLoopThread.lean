import CcMuduo.EventLoop.Wakeup

/-!
# The thread of an event loop

`EventLoopThread`: one thread starts the new thread, waits until it has published its loop, and later
destroys the object; the new thread builds the loop, publishes it, runs `loop()` and takes it back. Any
other thread may use the loop meanwhile.

The destructor asks the loop to quit and joins. It reads `loop_` twice without the mutex, for its test and
for the call of `quit`. `loop()` begins by storing `quit_ = false`, and the loop is published before that,
so a request that comes in between is overwritten. Every request that comes later ends the loop within the
iteration that is under way.
-/

namespace CcMuduo

open Foundation

variable {T F : Type*} [DecidableEq T]

/-- The place of the new thread in `threadFunc`. -/
inductive ThreadFuncPc where
  | notStarted
  | initializing
  | published
  | looping
  | returned
  | cleared
  | destroyed
  deriving DecidableEq, Repr

/-- The place of the creating thread: before and inside `startLoop`, with the loop in hand, and in the
destructor, behind its test of `loop_`, in `quit` on the loop, and in the join. In `crashed` the second
read has found the pointer null, and the process dies in `quit`. -/
inductive CreatorPc where
  | idle
  | waiting
  | holding
  | tested
  | quitting
  | joining
  | finished
  | crashed
  deriving DecidableEq, Repr

/-- An `EventLoopThread` with its loop. `loop_` says whether the pointer is set. `requested` says that
the destructor's `quit` has stored `quit_`, and `iterations` counts the iterations of the loop that were
finished since. -/
structure EventLoopThread (T F : Type*) where
  sys : LoopSystem T F
  loop_ : Bool
  thread : ThreadFuncPc
  creator : CreatorPc
  requested : Bool
  iterations : ℕ

/-- A step of `startLoop`, `threadFunc` or the destructor, or of the loop and the calls on it. -/
inductive EventLoopThreadLabel (T F : Type*) where
  | startLoop
  | publish
  | startLoopReturns
  | sys (label : LoopLabel T F)
  | clear
  | destroyLoop
  | destroy
  | callQuit
  | join

namespace EventLoopThread

/-- The object behind its constructor. -/
def constructed : EventLoopThread T F := ⟨.constructed, false, .notStarted, .idle, false, 0⟩

variable (owner creator : T) (s : EventLoopThread T F)

/-- May the thread begin a call on the loop? The creating thread only with the loop in hand, the new
thread in the init callback and inside `loop()`, any other while the loop exists. -/
def mayCall (t : T) : Bool :=
  if t = creator then s.creator == .holding
  else if t = owner then s.thread == .initializing || s.thread == .looping
  else s.thread != .notStarted && s.thread != .destroyed

/-- Is the destructor in front of its `quit`? -/
def aboutToQuit : Bool := s.creator == .quitting && !s.requested

/-- Which steps of the loop and its callers are possible: `threadFunc` runs `loop()` once. -/
def allows : LoopLabel T F → Bool
  | .move .enter => s.thread == .published
  | .move _ => s.thread == .looping
  | .queueInLoop t _ => s.mayCall owner creator t
  | .quit t => s.mayCall owner creator t || (t == creator && s.aboutToQuit)
  | .queueTest _ | .queueWake _ | .quitTest _ | .quitWake _ => true

/-- The rest of the object behind a step of the loop. -/
def follow (sys : LoopSystem T F) : LoopLabel T F → EventLoopThread T F
  | .move .enter => { s with sys := sys, thread := .looping }
  | .move .test => { s with sys := sys, thread := if sys.loop.looping then .looping else .returned }
  | .move .finish =>
    { s with sys := sys, iterations := if s.requested then s.iterations + 1 else s.iterations }
  | .quit t => { s with sys := sys, requested := s.requested || (t == creator && s.aboutToQuit) }
  | .quitWake t =>
    { s with
      sys := sys
      creator := if t = creator ∧ s.creator = .quitting then .joining else s.creator }
  | _ => { s with sys := sys }

/-- One step, where `owner` is the new thread and `creator` the one that starts and destroys. The destructor
reads `loop_` in `destroy` and again in `callQuit`. -/
def step (s : EventLoopThread T F) : EventLoopThreadLabel T F → Option (EventLoopThread T F)
  | .startLoop =>
    if s.creator = .idle then some { s with creator := .waiting, thread := .initializing } else none
  | .publish =>
    if s.thread = .initializing ∧ s.sys.calls owner = .idle then
      some { s with loop_ := true, thread := .published }
    else none
  | .startLoopReturns =>
    if s.creator = .waiting ∧ s.loop_ then some { s with creator := .holding } else none
  | .sys label =>
    if s.allows owner creator label then
      (s.sys.step owner label).map fun sys => s.follow creator sys label
    else none
  | .clear =>
    if s.thread = .returned then some { s with loop_ := false, thread := .cleared } else none
  | .destroyLoop => if s.thread = .cleared then some { s with thread := .destroyed } else none
  | .destroy =>
    if s.creator = .holding ∧ s.sys.calls creator = .idle then
      some { s with creator := if s.loop_ then .tested else .finished }
    else none
  | .callQuit =>
    if s.creator = .tested then
      some { s with creator := if s.loop_ then .quitting else .crashed }
    else none
  | .join =>
    if s.creator = .joining ∧ s.thread = .destroyed then some { s with creator := .finished }
    else none

/-- Where each step starts, and everything it changes. -/
theorem step_spec {owner creator : T} {s s' : EventLoopThread T F} {label : EventLoopThreadLabel T F}
    (h : s.step owner creator label = some s') :
    match label with
    | .startLoop => s.creator = .idle ∧ s' = { s with creator := .waiting, thread := .initializing }
    | .publish => (s.thread = .initializing ∧ s.sys.calls owner = .idle) ∧
        s' = { s with loop_ := true, thread := .published }
    | .startLoopReturns => (s.creator = .waiting ∧ s.loop_ = true) ∧ s' = { s with creator := .holding }
    | .sys label => s.allows owner creator label = true ∧
        ∃ sys, s.sys.step owner label = some sys ∧ s' = s.follow creator sys label
    | .clear => s.thread = .returned ∧ s' = { s with loop_ := false, thread := .cleared }
    | .destroyLoop => s.thread = .cleared ∧ s' = { s with thread := .destroyed }
    | .destroy => (s.creator = .holding ∧ s.sys.calls creator = .idle) ∧
        s' = { s with creator := if s.loop_ then .tested else .finished }
    | .callQuit => s.creator = .tested ∧
        s' = { s with creator := if s.loop_ then .quitting else .crashed }
    | .join => (s.creator = .joining ∧ s.thread = .destroyed) ∧ s' = { s with creator := .finished } := by
  cases label with
  | sys label =>
    obtain ⟨hallow, hs⟩ := Option.ite_none_right_eq_some.mp h
    obtain ⟨sys, hsys, rfl⟩ := Option.map_eq_some_iff.mp hs
    exact ⟨hallow, sys, hsys, rfl⟩
  | startLoop | publish | startLoopReturns | clear | destroyLoop | destroy | callQuit | join =>
    obtain ⟨hguard, hs⟩ := Option.ite_none_right_eq_some.mp h
    exact ⟨hguard, (Option.some.inj hs).symm⟩

/-- The destructor's request is not lost: once the wakeup is written the loop thread is not in `poll`
with the counter at zero, it finishes one more iteration at most, and from its next test of `quit_` it
returns. The test must find the destructor's own request: that another `quit` may end the loop as well
does not count. -/
structure NotLost : Prop where
  awake : s.creator = .joining → s.sys.loop.pc = .polling → 0 < s.sys.loop.wakeupCount
  once : s.iterations ≤ 1
  returns : s.requested = true → s.sys.loop.pc = .test → s.sys.loop.quit = true

instance [DecidableEq F] : DecidablePred (NotLost (T := T) (F := F)) := fun s =>
  decidable_of_iff ((s.creator = .joining → s.sys.loop.pc = .polling → 0 < s.sys.loop.wakeupCount) ∧
      s.iterations ≤ 1 ∧ (s.requested = true → s.sys.loop.pc = .test → s.sys.loop.quit = true))
    ⟨fun ⟨h₁, h₂, h₃⟩ => ⟨h₁, h₂, h₃⟩, fun ⟨h₁, h₂, h₃⟩ => ⟨h₁, h₂, h₃⟩⟩

/-- `loop()` stores `quit_ = false` only as long as the destructor has not stored `quit_ = true`. -/
def resetsFirst (s : EventLoopThread T F) : EventLoopThreadLabel T F → Prop
  | .sys (.move .enter) => s.requested = false
  | _ => True

instance (s : EventLoopThread T F) (label : EventLoopThreadLabel T F) : Decidable (s.resetsFirst label) :=
  match label with
  | .sys (.move .enter) => inferInstanceAs (Decidable (s.requested = false))
  | .sys (.move .test) | .sys (.move .poll) | .sys (.move .handleRead) | .sys (.move .handled)
  | .sys (.move .swap) | .sys (.move .call) | .sys (.move .finish) | .sys (.queueInLoop _ _)
  | .sys (.queueTest _) | .sys (.queueWake _) | .sys (.quit _) | .sys (.quitTest _)
  | .sys (.quitWake _) | .startLoop | .publish | .startLoopReturns | .clear | .destroyLoop
  | .destroy | .callQuit | .join => inferInstanceAs (Decidable True)

/-- What every step keeps while `loop()` resets `quit_` first. -/
structure Inv : Prop where
  stored : s.requested = true → s.sys.loop.quit = true
  joining : s.creator = .joining → s.requested = true
  awake : s.creator = .joining → s.sys.loop.pc = .polling → 0 < s.sys.loop.wakeupCount
  counted : 0 < s.iterations → s.requested = true
  once : 0 < s.iterations → s.iterations = 1 ∧ (s.sys.loop.pc = .test ∨ s.sys.loop.pc = .outside)
  quitting : s.creator = .tested ∨ s.creator = .quitting → s.sys.calls creator ≠ .idle →
    s.requested = true

variable {owner creator} {s}

omit [DecidableEq T] in
/-- The invariant says that no request is lost. -/
theorem Inv.notLost (h : s.Inv creator) : s.NotLost := by
  refine ⟨h.awake, ?_, fun hreq _ => h.stored hreq⟩
  rcases Nat.eq_zero_or_pos s.iterations with hzero | hpos
  · omega
  · exact (h.once hpos).1.le

/-- A step of the loop thread keeps the invariant. -/
theorem Inv.move (h : s.Inv creator) {m : EventLoop.Move} {loop : EventLoop T F}
    (hm : s.sys.loop.next m = some loop)
    (hfirst : m = .enter → s.requested = false) :
    (s.follow creator { s.sys with loop := loop } (.move m)).Inv creator := by
  have hspec := EventLoop.next_spec hm
  -- a finished iteration is only followed by the test that leaves the loop
  have early (hpc : s.sys.loop.pc ≠ .test) (hout : s.sys.loop.pc ≠ .outside) :
      ¬ 0 < s.iterations := fun hpos => (h.once hpos).2.elim hpc hout
  cases m with
  | enter =>
    obtain ⟨hpc, rfl⟩ := hspec
    have hreq := hfirst rfl
    have hnone : ¬ 0 < s.iterations := fun hpos => by simp [h.counted hpos] at hreq
    refine ⟨fun h' => ?_, h.joining, fun _ hpoll => ?_, h.counted, fun hpos => absurd hpos hnone,
      h.quitting⟩
    · exact absurd (hreq.symm.trans h') Bool.false_ne_true
    · contradiction
  | test =>
    obtain ⟨hpc, rfl⟩ := hspec
    refine ⟨h.stored, h.joining, fun hjoin hpoll => ?_, h.counted, fun hpos => ?_, h.quitting⟩
    · have hquit := h.stored (h.joining hjoin)
      simp [follow, hquit] at hpoll
    · have hquit := h.stored (h.counted hpos)
      exact ⟨(h.once hpos).1, .inr (by simp [follow, hquit])⟩
  | poll | handleRead | handled | swap =>
    obtain ⟨hpc, rfl⟩ := hspec
    exact ⟨h.stored, h.joining, (fun _ hpoll => nomatch hpoll), h.counted,
      fun hpos => absurd hpos (early (by simp [hpc]) (by simp [hpc])), h.quitting⟩
  | call =>
    obtain ⟨called, e, rest, hpc, rfl⟩ := hspec
    exact ⟨h.stored, h.joining, (fun _ hpoll => nomatch hpoll), h.counted,
      fun hpos => absurd hpos (early (by simp [hpc]) (by simp [hpc])), h.quitting⟩
  | finish =>
    obtain ⟨called, hpc, rfl⟩ := hspec
    have hzero : s.iterations = 0 := by
      have := early (by simp [hpc]) (by simp [hpc])
      omega
    have hcount (hpos : 0 < if s.requested = true then s.iterations + 1 else s.iterations) :
        s.requested = true := by
      by_contra hreq
      rw [if_neg hreq] at hpos
      omega
    refine ⟨h.stored, h.joining, (fun _ hpoll => nomatch hpoll), hcount, fun hpos => ⟨?_, .inl rfl⟩,
      h.quitting⟩
    simp [follow, hcount hpos, hzero]

/-- A thread that goes on in its call keeps the invariant. -/
theorem Inv.proceed (h : s.Inv creator) {t : T} (pc : CallPc) (ht : s.sys.calls t ≠ .idle) :
    Inv creator { s with sys := { s.sys with calls := Function.update s.sys.calls t pc } } := by
  refine ⟨h.stored, h.joining, h.awake, h.counted, h.once, fun hq hcall => ?_⟩
  by_cases hcreator : creator = t
  · exact h.quitting hq (hcreator ▸ ht)
  · apply h.quitting hq
    simpa only [Function.update_of_ne hcreator] using hcall

omit [DecidableEq T] in
/-- Writing the eventfd keeps the invariant. -/
theorem Inv.wake (h : s.Inv creator) {loop : EventLoop T F} (hwake : s.sys.loop.wakeup = some loop) :
    Inv creator { s with sys := { s.sys with loop := loop } } := by
  obtain rfl := EventLoop.wakeup_spec hwake
  exact ⟨h.stored, h.joining, fun _ _ => Nat.succ_pos _, h.counted, h.once, h.quitting⟩

/-- A step of the loop or of a call on it keeps the invariant. -/
theorem Inv.sys (h : s.Inv creator) {label : LoopLabel T F} {sys : LoopSystem T F}
    (hallow : s.allows owner creator label = true) (hstep : s.sys.step owner label = some sys)
    (hfirst : s.resetsFirst (.sys label)) : (s.follow creator sys label).Inv creator := by
  cases LoopSystem.step_spec hstep with
  | move _ hnext =>
    refine h.move hnext fun hm => ?_
    subst hm
    exact hfirst
  | @queueInLoop t =>
    refine ⟨h.stored, h.joining, h.awake, h.counted, h.once, fun hq hcall => ?_⟩
    by_cases hcreator : creator = t
    · have hpc : s.creator = .tested ∨ s.creator = .quitting := hq
      rcases hpc with hpc | hpc <;> simp [allows, mayCall, hcreator, hpc] at hallow
    · apply h.quitting hq
      simpa [follow, Function.update_of_ne hcreator] using hcall
  | @quit t =>
    have hmono (hreq : s.requested = true) :
        (s.requested || (t == creator && s.aboutToQuit)) = true := by simp [hreq]
    refine ⟨fun _ => rfl, fun hj => hmono (h.joining hj), h.awake,
      fun hpos => hmono (h.counted hpos), h.once, fun hq hcall => ?_⟩
    by_cases hcreator : creator = t
    · have hpc : s.creator = .tested ∨ s.creator = .quitting := hq
      have hnot : (s.creator == .holding) = false := by rcases hpc with hpc | hpc <;> simp [hpc]
      simp only [allows, mayCall, hcreator, if_true, hnot, Bool.false_or, beq_self_eq_true,
        Bool.true_and] at hallow
      simp [follow, hcreator, hallow]
    · apply hmono
      apply h.quitting hq
      simpa [follow, Function.update_of_ne hcreator] using hcall
  | queueTest ht | quitTest ht => exact h.proceed _ (by simp [ht])
  | queueWake ht hwake => exact (h.wake hwake).proceed _ (by simp [ht])
  | @quitWake t loop ht hwake =>
    have hnext := (h.wake hwake).proceed .idle (show s.sys.calls t ≠ .idle by simp [ht])
    obtain rfl := EventLoop.wakeup_spec hwake
    by_cases hjoin : t = creator ∧ s.creator = .quitting
    · have hreq : s.requested = true := h.quitting (.inr hjoin.2) (by simp [← hjoin.1, ht])
      simp only [follow, if_pos hjoin]
      exact ⟨h.stored, fun _ => hreq, fun _ _ => Nat.succ_pos _, h.counted, h.once,
        fun hq => by simp at hq⟩
    · simpa only [follow, if_neg hjoin] using hnext

/-- Every step before which `loop()` has reset `quit_`, or nothing was requested, keeps the
invariant. -/
theorem Inv.step {s' : EventLoopThread T F} {label : EventLoopThreadLabel T F} (h : s.Inv creator)
    (hfirst : s.resetsFirst label) (hstep : s.step owner creator label = some s') :
    s'.Inv creator := by
  have hspec := step_spec hstep
  cases label with
  | sys label =>
    obtain ⟨hallow, sys, hsys, rfl⟩ := hspec
    exact h.sys hallow hsys hfirst
  | startLoop | startLoopReturns | join =>
    obtain ⟨-, rfl⟩ := hspec
    exact ⟨h.stored, (fun hj => nomatch hj), (fun hj => nomatch hj), h.counted, h.once,
      fun hq => by simp at hq⟩
  | publish | clear | destroyLoop =>
    obtain ⟨-, rfl⟩ := hspec
    exact ⟨h.stored, h.joining, h.awake, h.counted, h.once, h.quitting⟩
  | destroy =>
    obtain ⟨⟨hpc, hidle⟩, rfl⟩ := hspec
    refine ⟨h.stored, fun hj => ?_, fun hj => ?_, h.counted, h.once,
      fun _ hcall => absurd hidle hcall⟩ <;>
      cases hl : s.loop_ <;> simp [hl] at hj
  | callQuit =>
    obtain ⟨hpc, rfl⟩ := hspec
    refine ⟨h.stored, fun hj => ?_, fun hj => ?_, h.counted, h.once, fun _ => h.quitting (.inl hpc)⟩ <;>
      cases hl : s.loop_ <;> simp [hl] at hj

/-- Resetting `quit_` behind the request loses it. -/
theorem not_notLost_of_reset {s' : EventLoopThread T F} {label : EventLoopThreadLabel T F}
    (hfirst : ¬ s.resetsFirst label) (hstep : s.step owner creator label = some s') :
    ¬ s'.NotLost := by
  unfold resetsFirst at hfirst
  split at hfirst
  · obtain ⟨-, sys, hsys, rfl⟩ := step_spec hstep
    obtain ⟨-, hnext⟩ := LoopSystem.step_spec hsys
    obtain ⟨-, rfl⟩ := EventLoop.next_spec hnext
    intro hlost
    have hquit := hlost.returns (by simpa [follow] using hfirst) rfl
    simp [follow] at hquit
  · exact absurd trivial hfirst

end EventLoopThread

/-- The destructor's request is never lost exactly when `loop()` resets `quit_` before the destructor
stores it. -/
theorem notLost_iff_resetsFirst (owner creator : T) (labels : List (EventLoopThreadLabel T F)) :
    Everywhere (EventLoopThread.step owner creator) EventLoopThread.NotLost .constructed labels ↔
      Along (EventLoopThread.step owner creator) EventLoopThread.resetsFirst .constructed labels := by
  refine everywhere_iff_along (I := EventLoopThread.Inv creator) (fun _ hs => hs.notLost)
    (fun _ _ _ hs hc hstep => hs.step hc hstep)
    (fun _ _ _ _ hc hstep => EventLoopThread.not_notLost_of_reset hc hstep) labels ?_
  constructor <;> simp [EventLoopThread.constructed]

/-- The object is destroyed as soon as `startLoop` returns: the new thread enters `loop()` after the
request, finishes one iteration on the wakeup and is back in `poll` with the counter at zero. -/
theorem notLost_early_destroy :
    ¬ Everywhere (EventLoopThread.step true false) EventLoopThread.NotLost
      (EventLoopThread.constructed (F := ℕ))
      [.startLoop, .publish, .startLoopReturns, .destroy, .callQuit, .sys (.quit false),
        .sys (.quitTest false), .sys (.quitWake false), .sys (.move .enter), .sys (.move .test),
        .sys (.move .poll), .sys (.move .handleRead), .sys (.move .handled), .sys (.move .swap),
        .sys (.move .finish), .sys (.move .test)] := by
  decide

end CcMuduo
