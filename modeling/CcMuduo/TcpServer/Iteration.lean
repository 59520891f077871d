import CcMuduo.Foundation.Ranking
import CcMuduo.TcpConnection.Growth
import CcMuduo.TcpServer.Progress

/-!
# An iteration of a loop ends

A loop that is dispatching or running functors gets back to its poll, whatever the kernel answers. An event
is dispatched once and leaves at most two functions on the stack, the return of a function queues at most
one functor, and a functor of the vector that was taken leaves at most one function; what it queues
itself is for the next iteration.
-/

namespace CcMuduo

open Foundation

namespace ServerSystem

variable {L : Type*} {s t u : ServerSystem L} {c : ℕ} {l : L} {x : Io}

/-- A loop has at most so many functions more on its stack and functors more in its queue, and is
otherwise where it was. -/
structure Adds (l : L) (frames queued : ℕ) (s t : ServerSystem L) : Prop where
  phase : t.phase l = s.phase l
  active : t.activeChannels l = s.activeChannels l
  functors : t.functors l = s.functors l
  stack : (t.stack l).length ≤ (s.stack l).length + frames
  pending : (t.pendingFunctors l).length ≤ (s.pendingFunctors l).length + queued

/-- A change of something else. -/
theorem Adds.refl (s : ServerSystem L) : Adds l 0 0 s s := ⟨rfl, rfl, rfl, le_rfl, le_rfl⟩

/-- One change after another. -/
theorem Adds.trans {a b a' b' : ℕ} (h : Adds l a b s t) (h' : Adds l a' b' t u) :
    Adds l (a + a') (b + b') s u := by
  refine ⟨h'.phase.trans h.phase, h'.active.trans h.active, h'.functors.trans h.functors, ?_, ?_⟩
  · have := h.stack
    have := h'.stack
    omega
  · have := h.pending
    have := h'.pending
    omega

/-- Fewer are at most as many. -/
theorem Adds.mono {a b a' b' : ℕ} (h : Adds l a b s t) (ha : a ≤ a') (hb : b ≤ b') :
    Adds l a' b' s t :=
  ⟨h.phase, h.active, h.functors, h.stack.trans (by omega), h.pending.trans (by omega)⟩

/-- An event of a life. -/
theorem adds_note (s : ServerSystem L) (c : ℕ) (e : LifeEvent) : Adds l 0 0 s (s.note c e) :=
  ⟨rfl, rfl, rfl, le_rfl, le_rfl⟩

variable [DecidableEq L]

/-- A function comes to user code. -/
theorem adds_push (s : ServerSystem L) (l' : L) (f : ServerFrame) : Adds l 1 0 s (s.push l' f) := by
  refine ⟨rfl, rfl, rfl, ?_, le_rfl⟩
  by_cases hl : l = l'
  · subst hl
    simp [push]
  · simp [push, hl]

/-- A functor is queued. -/
theorem adds_queueInLoop (s : ServerSystem L) (l' : L) (f : ServerFunctor) :
    Adds l 0 1 s (s.queueInLoop l' f) := by
  refine ⟨rfl, rfl, rfl, le_rfl, ?_⟩
  by_cases hl : l = l'
  · subst hl
    simp [queueInLoop]
  · simp [queueInLoop, hl]

/-- What the effects of a connection start: a function for each close, a functor for each callback. -/
theorem adds_starts (s : ServerSystem L) (c : ℕ) (effects : List Effect) :
    Adds l (closes effects) (queuedCallbacks effects).length s (effects.foldl (start c) s) := by
  induction effects generalizing s with
  | nil => exact .refl s
  | cons e rest ih =>
    have hrest := ih (start c s e)
    rw [List.foldl_cons]
    cases e with
    | queueWriteComplete | queueHighWaterMark =>
      refine ((adds_queueInLoop s (s.home c) (.callback c)).trans hrest).mono ?_ ?_
      · simp [closes]
      · simp [queuedCallbacks, Effect.queues, List.filter_cons, Nat.add_comm]
    | closeCallback =>
      refine ((adds_push s (s.home c) (.handleClose c)).trans hrest).mono ?_ ?_
      · simp [closes, Nat.add_comm]
      · simp [queuedCallbacks, Effect.queues]
    | connectionCallback | messageCallback =>
      refine ((adds_note s c .notification).trans hrest).mono ?_ ?_
      · simp [closes]
      · simp [queuedCallbacks, Effect.queues]
    | write | formatLiteral | shutdownWrite =>
      refine hrest.mono ?_ ?_
      · simp [closes]
      · simp [queuedCallbacks, Effect.queues]

/-- What a function of a connection leaves to the loops. -/
theorem adds_perform {new : List Effect} (heffects : x.effects = s.log c ++ new) :
    Adds l (closes new) (queuedCallbacks new).length s (s.perform c x) := by
  have hput : Adds l 0 0 s (s.put c x) := ⟨rfl, rfl, rfl, le_rfl, le_rfl⟩
  have hnew : x.effects.drop (s.log c).length = new := by rw [heffects, List.drop_left]
  rw [perform, hnew]
  exact (hput.trans (adds_starts (s.put c x) c new)).mono (by omega) (by omega)

/-- The end of an event: at most one callback is queued. -/
theorem adds_eventWrite (hsound : (s.io c).Sound) {revents : Mask} {w : WriteResult}
    (hfits : w.fits (s.conns c).outputBuffer.readableBytes = true)
    (hx : (s.io c).handleEventWrite revents w = .ok x) : Adds l 0 1 s (s.perform c x) := by
  obtain ⟨new, hnew, hcloses, hqueues⟩ := Io.handleEventWrite_new hsound hfits hx
  exact (adds_perform hnew).mono hcloses.le hqueues

/-- The beginning of an event: at most one close, and no callback is queued. -/
theorem adds_eventRead (hsound : (s.io c).Sound) {revents : Mask} {r : ReadResult}
    (hlegal : (ConnCall.handleRead r).legal (s.io c) = true)
    (hx : (s.io c).handleEventRead revents r = .ok x) : Adds l 1 0 s (s.perform c x) := by
  obtain ⟨new, hnew, hcloses, hqueues⟩ := Io.handleEventRead_new hsound hlegal hx
  exact (adds_perform hnew).mono hcloses (by rw [hqueues]; exact le_rfl)

/-- The return of a callback takes one function off the stack, and queues one functor at most. -/
theorem adds_resume (hbooked : s.Booked) {w : WriteResult} (hs : s.step (.resume l w) = some t) :
    Adds l 0 1 (s.popFrame l) t := by
  cases step_spec hs with
  | returned => exact (Adds.refl _).mono le_rfl (Nat.zero_le 1)
  | established => exact (adds_note _ _ .established).mono le_rfl (Nat.zero_le 1)
  | @eventWrite l w c revents x hstack hfits hx =>
    exact adds_eventWrite (s := s.popFrame l) (hbooked.wired.sound c) hfits hx
  | @closed l w c hstack =>
    unfold removeConnection
    split
    · have herase : Adds l 0 0 (s.popFrame l)
          (({ s.popFrame l with server := (s.popFrame l).server.erase ((s.popFrame l).names c) } :
            ServerSystem L).note c .removed) := ⟨rfl, rfl, rfl, le_rfl, le_rfl⟩
      exact (herase.trans (adds_queueInLoop _ _ _)).mono le_rfl le_rfl
    · exact adds_queueInLoop _ _ _
  | @destroyed l w c x hstack hx =>
    have heffects : x.effects = (s.popFrame l).log c ++ [] := by
      rw [(Io.remove_moves (hbooked.wired.sound c) hx).2.2, List.append_nil]
      rfl
    have hperform : Adds l 0 0 (s.popFrame l) ((s.popFrame l).perform c x) := adds_perform heffects
    exact (hperform.trans (adds_note _ c .destroyed)).mono le_rfl (Nat.zero_le 1)

/-- The dispatch of an event takes one active channel, and leaves two functions on the stack at most. -/
theorem adds_event (hbooked : s.Booked) {r : ReadResult} (hs : s.step (.event l r) = some t) :
    Adds l 2 0 (s.popActive l) t := by
  cases step_spec hs with
  | @event l r c revents rest x hphase hstack hactive hlegal hx =>
    have hbegin : Adds l 1 0 (s.popActive l)
        (((s.popActive l).note c .handler).push l (.handleEvent c revents)) :=
      (adds_note _ c .handler).trans (adds_push _ l _)
    exact hbegin.trans (adds_eventRead
      (s := ((s.popActive l).note c .handler).push l (.handleEvent c revents))
      (hbooked.wired.sound c) hlegal hx)

/-- A functor is taken out of the vector, and leaves one function on the stack at most. -/
theorem adds_functor (hbooked : s.Booked) (hunshared : s.Unshared) {msg : Message} {w : WriteResult}
    {log : ErrnoTrail} (hs : s.step (.functor l msg w log) = some t) :
    ∃ queued, Adds l 1 queued (s.popFunctor l) t := by
  cases step_spec hs with
  | @establish l msg w log c x _ _ hfunctor hx =>
    have heffects : x.effects = s.log c ++ [.connectionCallback x.connected] := by
      obtain ⟨y, hy, heq⟩ := bind_eq_ok.mp hx
      obtain ⟨p, index, -, rfl⟩ := Io.onChannel_update (m := fun e => e ||| kReadEvent) hy
      obtain rfl := Except.ok.inj heq
      rfl
    have hbegin : Adds l 1 0 (s.popFunctor l) ((s.popFunctor l).establishing c) :=
      (adds_note _ c .establishing).trans (adds_push _ _ _)
    have hperform := adds_perform (l := l) (s := (s.popFunctor l).establishing c) heffects
    have hcloses : closes [.connectionCallback x.connected] = 0 := by simp [closes]
    rw [hcloses] at hperform
    exact ⟨_, hbegin.trans hperform⟩
  | @remove l msg w log c =>
    have herase : Adds l 0 0 (s.popFunctor l)
        (({ s.popFunctor l with server := (s.popFunctor l).server.erase ((s.popFunctor l).names c) } :
          ServerSystem L).note c .removed) := ⟨rfl, rfl, rfl, le_rfl, le_rfl⟩
    exact ⟨_, (herase.trans (adds_queueInLoop _ _ _)).mono (Nat.zero_le 1) le_rfl⟩
  | @destroyNotify l msg w log c x _ _ hfunctor hstate _ =>
    have hdown : (s.conns c).state = .kDisconnected :=
      (hunshared.waiting l _ (mem_queued_of_head hfunctor)).2 rfl
    rw [hdown] at hstate
    contradiction
  | @destroy l msg w log c x _ _ hfunctor _ hx =>
    have heffects : x.effects = ((s.popFunctor l).note c .destroying).log c ++ [] := by
      rw [(Io.remove_moves (hbooked.wired.sound c) hx).2.2, List.append_nil]
      rfl
    have hperform : Adds l 0 0 ((s.popFunctor l).note c .destroying)
        (((s.popFunctor l).note c .destroying).perform c x) := adds_perform heffects
    have hdone := ((adds_note (s.popFunctor l) c .destroying).trans hperform).trans
      (adds_note _ c .destroyed)
    exact ⟨0, hdone.mono (Nat.zero_le 1) le_rfl⟩
  | @callback l msg w log c _ _ _ =>
    exact ⟨0, (adds_note _ c .notification).trans (adds_push _ _ _)⟩
  | @sendInLoop l msg w log c x _ _ hfunctor _ =>
    exact absurd (hunshared.waiting l _ (mem_queued_of_head hfunctor)).1 (by simp [ServerFunctor.raw])
  | @shutdownInLoop l msg w log c _ _ hfunctor =>
    exact absurd (hunshared.waiting l _ (mem_queued_of_head hfunctor)).1 (by simp [ServerFunctor.raw])

/-- A bound on the steps that a loop takes until its next poll. -/
def rank (l : L) (s : ServerSystem L) : ℕ :=
  match s.phase l with
  | .polling => 0
  | .dispatching => 7 * (s.activeChannels l).length + 3 * (s.stack l).length +
      2 * (s.pendingFunctors l).length + 2
  | .callingPendingFunctors => 2 * (s.functors l).length + (s.stack l).length + 1

/-- The next step of a loop that is not in its poll lowers the rank. -/
theorem rank_turn (hbooked : s.Booked) (hunshared : s.Unshared) {a : TurnAnswer}
    (hphase : s.phase l ≠ .polling) (hs : s.step (s.turn l a) = some t) : t.rank l < s.rank l := by
  unfold turn at hs
  split at hs
  · rename_i f rest hstack
    have hadds := adds_resume hbooked hs
    have hpop : ((s.popFrame l).stack l).length + 1 = (s.stack l).length := by
      simp [popFrame, hstack]
    have hframes := hadds.stack
    have hpending : (t.pendingFunctors l).length ≤ (s.pendingFunctors l).length + 1 := hadds.pending
    have hsame : t.phase l = s.phase l := hadds.phase
    have hactive : t.activeChannels l = s.activeChannels l := hadds.active
    have hfunctors : t.functors l = s.functors l := hadds.functors
    unfold rank
    rw [hsame, hactive, hfunctors]
    cases hp : s.phase l with
    | polling => exact absurd hp hphase
    | dispatching =>
      dsimp only
      omega
    | callingPendingFunctors =>
      dsimp only
      omega
  · contradiction
  · rename_i hstack hp hactive
    cases step_spec hs with
    | doPendingFunctors =>
      simp [rank, hp, hstack, hactive]
  · rename_i e rest hstack hp hactive
    have hadds := adds_event hbooked hs
    have hpop : ((s.popActive l).activeChannels l).length + 1 = (s.activeChannels l).length := by
      simp [popActive, hactive]
    have hframes : (t.stack l).length ≤ (s.stack l).length + 2 := hadds.stack
    have hpending : (t.pendingFunctors l).length ≤ (s.pendingFunctors l).length := hadds.pending
    have hsame : t.phase l = .dispatching := hadds.phase.trans hp
    have hleft := congrArg List.length hadds.active
    simp only [rank, hsame, hp]
    omega
  · rename_i hstack hp hfunctors
    cases step_spec hs with
    | loopAgain =>
      simp [rank, hp]
  · rename_i f rest hstack hp hfunctors
    obtain ⟨queued, hadds⟩ := adds_functor hbooked hunshared hs
    have hpop : ((s.popFunctor l).functors l).length + 1 = (s.functors l).length := by
      simp [popFunctor, hfunctors]
    have hframes : (t.stack l).length ≤ (s.stack l).length + 1 := hadds.stack
    have hsame : t.phase l = .callingPendingFunctors := hadds.phase.trans hp
    have hleft := congrArg List.length hadds.functors
    simp only [rank, hsame, hp]
    omega

end ServerSystem

/-- From every state of a run of a server in which user code keeps no reference, every loop left to
itself is back in its poll within the bound, whatever the kernel answers, as long as the buffers can take
what is read. -/
theorem loops_pollAgain {L : Type*} [DecidableEq L] (d : Deployment L) (labels : List (ServerLabel L))
    (h : Along ServerSystem.step (fun _ label => label.takesNothing = true) d.listening labels)
    (l : L) (answer : ServerSystem L → TurnAnswer) (hfits : ∀ s : ServerSystem L, s.Fits l (answer s)) :
    Everywhere ServerSystem.step
      (fun s => ∃ n ≤ s.rank l, ∃ t,
        drive ServerSystem.step (fun s => s.turn l (answer s)) n s = some t ∧ t.phase l = .polling)
      d.listening labels := by
  refine everywhere_of_along (I := fun s => s.Booked ∧ s.Unshared) (fun s hs => ?_)
    (fun _ _ _ hs hnothing hstep => ⟨hs.1.step hstep, hs.2.step hs.1 hnothing hstep⟩)
    ⟨d.listening_booked, d.listening_unshared⟩ h
  have hlowers (s : ServerSystem L) (hs : s.Booked ∧ s.Unshared) (hphase : ¬ s.phase l = .polling) :
      ∃ t, s.step (s.turn l (answer s)) = some t ∧ (t.Booked ∧ t.Unshared) ∧ t.rank l < s.rank l := by
    obtain ⟨t, ht⟩ := Option.isSome_iff_exists.mp (hs.2.turn_isSome hs.1 (hfits s))
    refine ⟨t, ht, ⟨hs.1.step ht, hs.2.step hs.1 ?_ ht⟩, ServerSystem.rank_turn hs.1 hs.2 hphase ht⟩
    unfold ServerSystem.turn
    split <;> rfl
  obtain ⟨n, hn, t, hdrive, -, hdone⟩ := drive_of_rank hlowers hs
  exact ⟨n, hn, t, hdrive, hdone⟩

/-- Behind the acceptance of a connection and its hang-up. -/
theorem loops_pollAgain_hangup :
    Everywhere ServerSystem.step
      (fun s => ∃ n ≤ s.rank (), ∃ t, drive ServerSystem.step
        (fun s => s.turn () ⟨.failed 0, .accepted 0, ⟨0, [], by decide⟩, ⟨id, id⟩⟩) n s = some t ∧
          t.phase () = .polling)
      Deployment.loopback.listening
      [.poll () [], .accept, .resume () (.accepted 0), .resume () (.accepted 0), .doPendingFunctors (),
        .loopAgain (), .poll () [(1, EPOLLHUP)], .event () (.failed 0)] :=
  loops_pollAgain _ _ (by decide +kernel) () (fun _ => ⟨.failed 0, .accepted 0, ⟨0, [], by decide⟩,
    ⟨id, id⟩⟩) fun _ => ⟨fun _ _ _ => by simp [WriteResult.fits], fun _ _ _ => ⟨rfl, trivial⟩⟩

end CcMuduo
