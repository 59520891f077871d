import CcMuduo.EventLoopThread

/-!
# The end of the loop under the destructor's `quit`

The destructor reads `loop_` for its test and reads it again for the call of `quit`, which stores `quit_`,
tests `isInLoopThread()` and writes the eventfd of the loop. It does not hold the mutex in all this, so
nothing makes the new thread wait: another request, or the destructor's own store, lets it leave `loop()`,
take the mutex, clear `loop_` and destroy the loop at any moment in between. The second read may then find a
null pointer, and what is left of `quit` may run on a destroyed loop.

Neither happens when the new thread does not take `loop_` back in this stretch of the destructor, which is
what holding the mutex would see to.
-/

namespace CcMuduo

open Foundation

namespace EventLoopThread

variable {T F : Type*} [DecidableEq T] {owner creator : T} {s s' : EventLoopThread T F}

/-- The destructor finds the loop in existence: its second read finds the pointer set, and no step of its
`quit`, the store, the test or the write, comes behind `~EventLoop`. -/
def FindsLoop (creator : T) (s : EventLoopThread T F) : EventLoopThreadLabel T F → Prop
  | .callQuit => s.loop_ = true
  | .sys (.quit t) | .sys (.quitTest t) | .sys (.quitWake t) =>
    t = creator → s.creator = .quitting → s.thread ≠ .destroyed
  | _ => True

instance (s : EventLoopThread T F) (label : EventLoopThreadLabel T F) :
    Decidable (s.FindsLoop creator label) := by
  unfold FindsLoop
  split <;> infer_instance

/-- The new thread does not take `loop_` back between the destructor's test of it and the destructor's
write of the eventfd. -/
def LeavesPointer (s : EventLoopThread T F) : EventLoopThreadLabel T F → Prop
  | .clear => s.creator ≠ .tested ∧ s.creator ≠ .quitting
  | _ => True

instance (s : EventLoopThread T F) (label : EventLoopThreadLabel T F) :
    Decidable (s.LeavesPointer label) := by
  unfold LeavesPointer
  split <;> infer_instance

/-- What such steps keep: `loop_` points to a loop that exists, and it is set while the destructor is
between its test and its write. -/
structure Present (s : EventLoopThread T F) : Prop where
  loop_ : s.loop_ = true → s.thread ≠ .cleared ∧ s.thread ≠ .destroyed
  kept : s.creator = .tested ∨ s.creator = .quitting → s.loop_ = true

/-- The thread is in `loop()` or just behind it when the loop has moved. -/
theorem follow_thread (sys : LoopSystem T F) {m : EventLoop.Move}
    (hallow : s.allows owner creator (.move m) = true) :
    (s.follow creator sys (.move m)).thread ≠ .cleared ∧
      (s.follow creator sys (.move m)).thread ≠ .destroyed := by
  cases m with
  | enter => simp [follow]
  | test =>
    simp only [follow]
    split <;> simp
  | poll | handleRead | handled | swap | call | finish =>
    have hthread : s.thread = .looping := by simpa [allows] using hallow
    simp [follow, hthread]

/-- Every step that leaves the destructor its pointer keeps the loop present. -/
theorem Present.step {label : EventLoopThreadLabel T F} (h : s.Present)
    (hleaves : s.LeavesPointer label) (hstep : s.step owner creator label = some s') : s'.Present := by
  have hspec := step_spec hstep
  cases label with
  | startLoop =>
    obtain ⟨-, rfl⟩ := hspec
    exact ⟨fun _ => ⟨by simp, by simp⟩, fun hq => by simp at hq⟩
  | publish =>
    obtain ⟨-, rfl⟩ := hspec
    exact ⟨fun _ => ⟨by simp, by simp⟩, fun _ => rfl⟩
  | startLoopReturns | join =>
    obtain ⟨-, rfl⟩ := hspec
    exact ⟨h.loop_, fun hq => by simp at hq⟩
  | clear =>
    obtain ⟨-, rfl⟩ := hspec
    exact ⟨fun hl => by contradiction, fun hq => (hq.elim hleaves.1 hleaves.2).elim⟩
  | destroyLoop =>
    obtain ⟨hthread, rfl⟩ := hspec
    exact ⟨fun hl => absurd hthread (h.loop_ hl).1, h.kept⟩
  | destroy =>
    obtain ⟨-, rfl⟩ := hspec
    refine ⟨h.loop_, fun hq => ?_⟩
    by_contra hl
    simp [hl] at hq
  | callQuit =>
    obtain ⟨htested, rfl⟩ := hspec
    exact ⟨h.loop_, fun _ => h.kept (.inl htested)⟩
  | sys label =>
    obtain ⟨hallow, sys, -, rfl⟩ := hspec
    cases label with
    | move m =>
      have hthread := follow_thread sys hallow
      refine ⟨fun _ => hthread, fun hq => ?_⟩
      cases m <;> exact h.kept hq
    | queueInLoop t cb | queueTest t | queueWake t | quit t | quitTest t => exact ⟨h.loop_, h.kept⟩
    | quitWake t =>
      refine ⟨h.loop_, fun hq => h.kept ?_⟩
      simp only [follow] at hq
      split at hq
      · simp at hq
      · exact hq

/-- The destructor finds a present loop. -/
theorem Present.findsLoop (h : s.Present) (label : EventLoopThreadLabel T F)
    (hstep : (s.step owner creator label).isSome = true) : s.FindsLoop creator label := by
  unfold FindsLoop
  split
  · by_cases htested : s.creator = .tested
    · exact h.kept (.inl htested)
    · simp [EventLoopThread.step, htested] at hstep
  · exact fun _ hquitting => (h.loop_ (h.kept (.inr hquitting))).2
  · exact fun _ hquitting => (h.loop_ (h.kept (.inr hquitting))).2
  · exact fun _ hquitting => (h.loop_ (h.kept (.inr hquitting))).2
  · trivial

variable (creator s) in
/-- Where the destructor is before its request and in it. -/
structure Asks : Prop where
  before : s.creator = .idle ∨ s.creator = .waiting ∨ s.creator = .holding ∨ s.creator = .tested →
    s.requested = false
  tested : s.creator = .tested → s.sys.calls creator = .idle
  quitting : s.creator = .quitting → s.requested = false ∧ s.sys.calls creator = .idle ∨
    s.sys.calls creator = .quitTest ∨ s.sys.calls creator = .quitWake

/-- A thread goes on in its call; the creating thread does so only outside the destructor or in the
request. -/
theorem Asks.of_call (h : s.Asks creator) {t : T} {p : CallPc} (loop : EventLoop T F)
    (htested : t = creator → s.creator ≠ .tested)
    (hquitting : t = creator → s.creator = .quitting → p = .quitTest ∨ p = .quitWake) :
    Asks creator { s with sys := ⟨loop, Function.update s.sys.calls t p⟩ } := by
  by_cases ht : creator = t
  · subst ht
    refine ⟨h.before, fun hcreator => absurd hcreator (htested rfl), fun hcreator => .inr ?_⟩
    simpa only [Function.update_self] using hquitting rfl hcreator
  · refine ⟨h.before, fun hcreator => ?_, fun hcreator => ?_⟩
    · simpa only [Function.update_of_ne ht] using h.tested hcreator
    · simpa only [Function.update_of_ne ht] using h.quitting hcreator

omit [DecidableEq T] in
/-- In a call that is none of a request, the creating thread is not in its destructor. -/
theorem Asks.outside (h : s.Asks creator) (hidle : s.sys.calls creator ≠ .idle)
    (hother : s.sys.calls creator ≠ .quitTest ∧ s.sys.calls creator ≠ .quitWake) :
    s.creator ≠ .tested ∧ s.creator ≠ .quitting := by
  refine ⟨fun hcreator => hidle (h.tested hcreator), fun hcreator => ?_⟩
  rcases h.quitting hcreator with ⟨-, hcall⟩ | hcall | hcall
  · exact hidle hcall
  · exact hother.1 hcall
  · exact hother.2 hcall

/-- A step of the loop or of a call on it. -/
theorem Asks.sys (hne : creator ≠ owner) (h : s.Asks creator) {label : LoopLabel T F}
    {sys : LoopSystem T F} (hallow : s.allows owner creator label = true)
    (hstep : s.sys.step owner label = some sys) : (s.follow creator sys label).Asks creator := by
  cases LoopSystem.step_spec hstep with
  | @move m => cases m <;> exact ⟨h.before, h.tested, h.quitting⟩
  | @queueInLoop t =>
    have hholding (ht : t = creator) : s.creator = .holding := by simpa [allows, mayCall, ht] using hallow
    exact h.of_call _ (fun ht => by simp [hholding ht]) fun ht hq => by simp [hholding ht] at hq
  | @queueTest t hcall | @queueWake t _ hcall =>
    have houtside (ht : t = creator) := h.outside (by simp [← ht, hcall]) (by simp [← ht, hcall])
    exact h.of_call _ (fun ht => (houtside ht).1) fun ht hq => absurd hq (houtside ht).2
  | @quit t =>
    have hplace (ht : t = creator) : s.creator = .holding ∨ s.creator = .quitting := by
      simp only [allows, mayCall, aboutToQuit, ht, if_true, beq_self_eq_true, Bool.true_and,
        Bool.or_eq_true, Bool.and_eq_true, beq_iff_eq] at hallow
      exact hallow.imp id And.left
    have hcall := h.of_call (p := .quitTest) s.sys.loop.setQuit
      (fun ht => by rcases hplace ht with hc | hc <;> simp [hc]) fun _ _ => .inl rfl
    refine ⟨fun hbefore => ?_, hcall.tested, fun hquitting => ?_⟩
    · have hnot : s.aboutToQuit = false := by
        rcases (show s.creator = _ ∨ s.creator = _ ∨ s.creator = _ ∨ s.creator = _ from hbefore) with
          hc | hc | hc | hc <;> simp [aboutToQuit, hc]
      simpa [follow, hnot] using h.before hbefore
    · by_cases ht : t = creator
      · exact .inr (.inl (by simp [follow, ht]))
      · simpa [follow, ht] using hcall.quitting hquitting
  | @quitTest t hcall =>
    have htested (ht : t = creator) (hcreator : s.creator = .tested) : False := by
      simpa [← ht, hcall] using h.tested hcreator
    refine h.of_call _ htested fun ht _ => .inr ?_
    simp [EventLoop.afterQuitTest, ht, hne]
  | @quitWake t loop hcall =>
    have htested (ht : t = creator) (hcreator : s.creator = .tested) : False := by
      simpa [← ht, hcall] using h.tested hcreator
    by_cases hjoin : t = creator ∧ s.creator = .quitting
    · simp only [follow, if_pos hjoin]
      exact ⟨fun hb => by simp at hb, fun hc => by simp at hc, fun hq => by simp at hq⟩
    · simpa only [follow, if_neg hjoin] using
        h.of_call loop htested fun ht hq => absurd ⟨ht, hq⟩ hjoin

/-- Every step leaves the destructor where it says. -/
theorem Asks.step (hne : creator ≠ owner) (h : s.Asks creator) {label : EventLoopThreadLabel T F}
    (hstep : s.step owner creator label = some s') : s'.Asks creator := by
  have hspec := step_spec hstep
  cases label with
  | sys label =>
    obtain ⟨hallow, sys, hsys, rfl⟩ := hspec
    exact h.sys hne hallow hsys
  | publish | clear | destroyLoop =>
    obtain ⟨-, rfl⟩ := hspec
    exact ⟨h.before, h.tested, h.quitting⟩
  | startLoop =>
    obtain ⟨hidle, rfl⟩ := hspec
    exact ⟨fun _ => h.before (.inl hidle), fun hc => by simp at hc, fun hq => by simp at hq⟩
  | startLoopReturns =>
    obtain ⟨⟨hwaiting, -⟩, rfl⟩ := hspec
    exact ⟨fun _ => h.before (.inr (.inl hwaiting)), fun hc => by simp at hc, fun hq => by simp at hq⟩
  | destroy =>
    obtain ⟨⟨hholding, hidle⟩, rfl⟩ := hspec
    refine ⟨fun _ => h.before (.inr (.inr (.inl hholding))), fun _ => hidle, fun hq => ?_⟩
    cases hl : s.loop_ <;> simp [hl] at hq
  | callQuit =>
    obtain ⟨htested, rfl⟩ := hspec
    have hreq := h.before (.inr (.inr (.inr htested)))
    refine ⟨fun _ => hreq, fun _ => h.tested htested, fun _ => .inl ⟨hreq, h.tested htested⟩⟩
  | join =>
    obtain ⟨-, rfl⟩ := hspec
    exact ⟨fun hb => by simp at hb, fun hc => by simp at hc, fun hq => by simp at hq⟩

/-- The condition leaves out nothing else: when the new thread takes `loop_` back in between, the destructor
can go on to find no loop. -/
theorem late_of_clear (hne : creator ≠ owner) {labels : List (EventLoopThreadLabel T F)}
    (hrun : run (EventLoopThread.step owner creator) .constructed labels = some s)
    (hclear : ¬ s.LeavesPointer .clear) (hstep : s.step owner creator .clear = some s')
    (hwake : s.sys.loop.wakeupCount < eventfdMax) :
    ∃ rest, (run (EventLoopThread.step owner creator) s' rest).isSome = true ∧
      ¬ Along (EventLoopThread.step owner creator) (FindsLoop creator) s' rest := by
  have hasks : s.Asks creator := invariant_of_steps (fun _ _ _ hs hstep => hs.step hne hstep)
    ⟨fun _ => rfl, fun _ => rfl, fun hq => by simp [constructed] at hq⟩ hrun
  obtain ⟨-, rfl⟩ := step_spec hstep
  by_cases htested : s.creator = .tested
  · refine ⟨[.callQuit], ?_, ?_⟩ <;>
      simp [run, Along, EventLoopThread.step, FindsLoop, htested]
  · have hquitting : s.creator = .quitting := by
      by_contra hq
      exact hclear ⟨htested, hq⟩
    rcases hasks.quitting hquitting with ⟨hreq, hidle⟩ | htest | hwrite
    · refine ⟨[.destroyLoop, .sys (.quit creator)], ?_, ?_⟩ <;>
        simp [run, Along, EventLoopThread.step, FindsLoop, allows, aboutToQuit, hquitting, hreq,
          LoopSystem.step, LoopSystem.free, hidle, hne]
    · refine ⟨[.destroyLoop, .sys (.quitTest creator)], ?_, ?_⟩ <;>
        simp [run, Along, EventLoopThread.step, FindsLoop, allows, hquitting, LoopSystem.step, htest]
    · refine ⟨[.destroyLoop, .sys (.quitWake creator)], ?_, ?_⟩ <;>
        simp [run, Along, EventLoopThread.step, FindsLoop, allows, hquitting, LoopSystem.step, hwrite,
          EventLoop.wakeup, hwake]

end EventLoopThread

/-- In every interleaving in which the new thread does not take `loop_` back between the destructor's test
of it and the destructor's write of the eventfd, the destructor finds the loop in existence: it never calls
`quit` on a null pointer, and every step of its `quit` comes before `~EventLoop`. -/
theorem quit_findsLoop {T F : Type*} [DecidableEq T] (owner creator : T)
    (labels : List (EventLoopThreadLabel T F))
    (h : Along (EventLoopThread.step owner creator) EventLoopThread.LeavesPointer .constructed labels) :
    Along (EventLoopThread.step owner creator) (EventLoopThread.FindsLoop creator) .constructed
      labels := by
  refine along_of_along (I := EventLoopThread.Present) (fun _ _ _ hs hc hstep => hs.step hc hstep)
    (fun _ label _ hs _ hstep => hs.findsLoop label (Option.isSome_of_eq_some hstep)) ?_ h
  exact ⟨fun hl => by contradiction, fun hq => by simp [EventLoopThread.constructed] at hq⟩

/-- The loop thread waits for its next test of `quit_` when the destructor stores it, but the destructor
is faster. -/
theorem quit_findsLoop_in_time :
    let labels : List (EventLoopThreadLabel Bool ℕ) := [.startLoop, .publish, .startLoopReturns,
      .sys (.move .enter), .sys (.move .test), .destroy, .callQuit, .sys (.quit false),
      .sys (.move .poll), .sys (.move .handled), .sys (.quitTest false), .sys (.move .swap),
      .sys (.move .finish), .sys (.move .test), .sys (.quitWake false), .clear, .destroyLoop, .join]
    (run (EventLoopThread.step true false) .constructed labels).isSome = true ∧
      Along (EventLoopThread.step true false) (EventLoopThread.FindsLoop false) .constructed labels :=
  ⟨by decide, quit_findsLoop true false _ (by decide)⟩

/-- The loop thread comes back from `poll` by itself, finds the destructor's store of `quit_`, and has
destroyed the loop before the destructor asks whether it is in the loop's thread. -/
theorem quit_on_destroyed_loop :
    ¬ Along (EventLoopThread.step true false) (EventLoopThread.FindsLoop false)
      (EventLoopThread.constructed (F := ℕ))
      [.startLoop, .publish, .startLoopReturns, .sys (.move .enter), .sys (.move .test), .destroy,
        .callQuit, .sys (.quit false), .sys (.move .poll), .sys (.move .handled), .sys (.move .swap),
        .sys (.move .finish), .sys (.move .test), .clear, .destroyLoop, .sys (.quitTest false)] := by
  decide

end CcMuduo
