import CcMuduo.TcpServer.Iteration
import CcMuduo.TcpServer.Rest
import Mathlib.Algebra.GroupWithZero.Nat

/-!
# The server comes to rest

Without new events and new connections the loops have a bounded amount of work, in whatever order they
take their turns. An active channel is worth what its event can start, a function on a stack or a functor
what it can queue, and a functor that another loop gets is worth the turn of that loop besides. So every
close that has begun is carried through, and what is at rest then is in order.
-/

namespace CcMuduo

open Foundation

/-- The work that a function on a stack is good for, when it returns. -/
def ServerFrame.weight : ServerFrame → ℕ
  | .newConnection _ | .connectEstablished _ | .connectDestroyed _ | .callback _ => 1
  | .handleEvent _ _ => 6
  | .handleClose _ => 9

/-- The work that a functor is good for. -/
def ServerFunctor.weight : ServerFunctor → ℕ
  | .connectDestroyed _ | .sendInLoop _ | .shutdownInLoop _ => 1
  | .connectEstablished _ | .callback _ => 2
  | .removeConnectionInLoop _ => 5

namespace ServerSystem

variable {L : Type*} {s t u : ServerSystem L} {c : ℕ} {l l' m : L} {x : Io} {j k : ℕ}

/-- A loop that is in its poll, without a functor that waits. -/
def idle (s : ServerSystem L) (l : L) : Prop := s.phase l = .polling ∧ s.pendingFunctors l = []

/-- The turns of a loop between its poll and the next. -/
def turns (s : ServerSystem L) (l : L) : ℕ :=
  match s.phase l with
  | .polling => if (s.pendingFunctors l).isEmpty then 0 else 3
  | .dispatching => 2
  | .callingPendingFunctors => if (s.pendingFunctors l).isEmpty then 1 else 4

/-- The work that waits for a loop. -/
def work (s : ServerSystem L) (l : L) : ℕ :=
  16 * (s.activeChannels l).length + ((s.stack l).map ServerFrame.weight).sum +
    ((s.queued l).map ServerFunctor.weight).sum + s.turns l

variable [DecidableEq L]

/-- The work that waits for all loops. -/
def workload (s : ServerSystem L) : ℕ := ∑ l ∈ s.loops.toFinset, s.work l

/-- A loop gets at most so much more work, and no other any. -/
structure Gains (m : L) (k : ℕ) (s t : ServerSystem L) : Prop where
  loops : t.loops = s.loops
  work : ∀ l, t.work l ≤ s.work l + if l = m then k else 0

/-- One loop has spent so much of its work, and one gets at most so much more. -/
structure Shifts (l : L) (spent : ℕ) (m : L) (gained : ℕ) (s t : ServerSystem L) : Prop where
  loops : t.loops = s.loops
  work : ∀ l', t.work l' + (if l' = l then spent else 0) ≤ s.work l' + if l' = m then gained else 0

/-- A change of something else. -/
theorem Gains.of_same (hserver : t.loops = s.loops) (hwork : ∀ l, t.work l = s.work l) : Gains m 0 s t :=
  ⟨hserver, fun l => by rw [hwork, ite_self]; exact le_rfl⟩

/-- An event of a life. -/
theorem gains_note (s : ServerSystem L) (m : L) (c : ℕ) (e : LifeEvent) : Gains m 0 s (s.note c e) :=
  .of_same rfl fun _ => rfl

/-- One change after another. -/
theorem Gains.trans (h : Gains m j s t) (h' : Gains m k t u) : Gains m (j + k) s u := by
  refine ⟨h'.loops.trans h.loops, fun l => ?_⟩
  have hfirst := h.work l
  have hsecond := h'.work l
  by_cases hl : l = m
  · simp only [if_pos hl] at hfirst hsecond ⊢
    omega
  · simp only [if_neg hl] at hfirst hsecond ⊢
    omega

/-- Less is at most as much. -/
theorem Gains.mono (h : Gains m j s t) (hle : j ≤ k) : Gains m k s t := by
  refine ⟨h.loops, fun l => (h.work l).trans ?_⟩
  split <;> omega

/-- What a loop takes up is spent, and what that brings comes behind it. -/
theorem Shifts.gains (h : Shifts l j m 0 s t) (h' : Gains m k t u) : Shifts l j m k s u := by
  refine ⟨h'.loops.trans h.loops, fun l' => ?_⟩
  have hfirst := h.work l'
  have hsecond := h'.work l'
  simp only [ite_self, Nat.add_zero] at hfirst
  omega

/-- A loop that spends more than it brings to any lowers the workload. -/
theorem Shifts.lowers (h : Shifts l j m k s t) (hl : l ∈ s.loops) (hlt : k < j) :
    t.workload < s.workload := by
  unfold workload
  rw [h.loops]
  exact sum_lt_sum_of_shift (List.mem_toFinset.mpr hl) hlt h.work

/-- A function on a stack. -/
theorem gains_push (s : ServerSystem L) (m : L) (f : ServerFrame) : Gains m f.weight s (s.push m f) := by
  refine ⟨rfl, fun l => ?_⟩
  by_cases hl : l = m
  · subst hl
    simp [work, turns, queued, push]
    omega
  · simp [work, turns, queued, push, hl]

/-- A functor in a queue, and the turn of its loop. -/
theorem gains_queueInLoop (s : ServerSystem L) (m : L) (f : ServerFunctor) :
    Gains m (f.weight + 3) s (s.queueInLoop m f) := by
  refine ⟨rfl, fun l => ?_⟩
  by_cases hl : l = m
  · subst hl
    have hturns : (s.queueInLoop l f).turns l ≤ s.turns l + 3 := by
      simp only [turns, ServerSystem.queueInLoop, Function.update_self]
      split
      · simp
      · simp
      · simp
        split <;> omega
    simp only [work, queued_queueInLoop_self, List.map_append, List.sum_append, List.map_cons,
      List.map_nil, List.sum_cons, List.sum_nil, if_true]
    change 16 * (s.activeChannels l).length + ((s.stack l).map ServerFrame.weight).sum + _ + _ ≤ _
    omega
  · have hturns : (s.queueInLoop m f).turns l = s.turns l := by
      simp [turns, ServerSystem.queueInLoop, hl]
    simp only [work, queued_queueInLoop_of_ne hl, hturns, if_neg hl]
    exact le_rfl

/-- A function leaves the stack. -/
theorem shifts_popFrame {f : ServerFrame} (hhead : (s.stack l).head? = some f) (m : L) :
    Shifts l f.weight m 0 s (s.popFrame l) := by
  obtain ⟨rest, hstack⟩ := List.head?_eq_some_iff.mp hhead
  refine ⟨rfl, fun l' => ?_⟩
  by_cases hl : l' = l
  · subst hl
    simp [work, turns, queued, popFrame, hstack]
    omega
  · simp [work, turns, queued, popFrame, hl]

/-- An active channel is taken. -/
theorem shifts_popActive (hactive : s.activeChannels l ≠ []) (m : L) :
    Shifts l 16 m 0 s (s.popActive l) := by
  obtain ⟨e, rest, hcons⟩ := List.exists_cons_of_ne_nil hactive
  refine ⟨rfl, fun l' => ?_⟩
  by_cases hl : l' = l
  · subst hl
    simp [work, turns, queued, popActive, hcons]
    omega
  · simp [work, turns, queued, popActive, hl]

/-- A functor is taken out of the vector. -/
theorem shifts_popFunctor {f : ServerFunctor} (hhead : (s.functors l).head? = some f) (m : L) :
    Shifts l f.weight m 0 s (s.popFunctor l) := by
  refine ⟨rfl, fun l' => ?_⟩
  have hturns : (s.popFunctor l).turns l' = s.turns l' := rfl
  by_cases hl : l' = l
  · subst hl
    simp only [work, queued_popFunctor hhead, hturns, List.map_cons, List.sum_cons, if_true, ite_self]
    change 16 * (s.activeChannels l').length + ((s.stack l').map ServerFrame.weight).sum + _ + _ + _ ≤ _
    omega
  · simp only [work, queued_popFunctor_of_ne hl, hturns, if_neg hl, ite_self]
    exact le_rfl

/-- What the effects of a connection start: its `handleClose` for a close, and a functor for each queued
callback. -/
theorem gains_starts (s : ServerSystem L) (c : ℕ) (effects : List Effect) :
    Gains (s.home c) (9 * closes effects + 5 * (queuedCallbacks effects).length) s
      (effects.foldl (start c) s) := by
  induction effects generalizing s with
  | nil => exact .of_same rfl fun _ => rfl
  | cons e rest ih =>
    have hrest := ih (start c s e)
    rw [List.foldl_cons]
    cases e with
    | queueWriteComplete | queueHighWaterMark =>
      refine ((gains_queueInLoop s (s.home c) (.callback c)).trans hrest).mono ?_
      simp [closes, queuedCallbacks, Effect.queues, List.filter_cons, ServerFunctor.weight]
      omega
    | closeCallback =>
      refine ((gains_push s (s.home c) (.handleClose c)).trans hrest).mono ?_
      simp [closes, queuedCallbacks, Effect.queues, ServerFrame.weight]
      omega
    | connectionCallback | messageCallback =>
      refine ((gains_note s (s.home c) c .notification).trans hrest).mono ?_
      simp [closes, queuedCallbacks, Effect.queues]
    | write | formatLiteral | shutdownWrite =>
      refine hrest.mono ?_
      simp [closes, queuedCallbacks, Effect.queues]

/-- What a function of a connection brings to its loop. -/
theorem gains_perform {new : List Effect} (heffects : x.effects = s.log c ++ new) :
    Gains (s.home c) (9 * closes new + 5 * (queuedCallbacks new).length) s (s.perform c x) := by
  have hnew : x.effects.drop (s.log c).length = new := by rw [heffects, List.drop_left]
  have hput : Gains (s.home c) 0 s (s.put c x) := .of_same rfl fun _ => rfl
  rw [perform, hnew]
  exact (hput.trans (gains_starts (s.put c x) c new)).mono (by omega)

/-- A function of a connection that adds neither a close nor a callback to its record. -/
theorem gains_quiet (heffects : x.effects = s.log c) (m : L) : Gains m 0 s (s.perform c x) := by
  rw [perform_eq_put heffects]
  exact .of_same rfl fun _ => rfl

/-- `removeConnectionInLoop` brings `connectDestroyed` to the loop of the connection. -/
theorem gains_removeConnectionInLoop (s : ServerSystem L) (c : ℕ) :
    Gains (s.home c) 4 s (s.removeConnectionInLoop c) := by
  have herase : Gains (s.home c) 0 s
      (({ s with server := s.server.erase (s.names c) } : ServerSystem L).note c .removed) :=
    .of_same rfl fun _ => rfl
  exact (herase.trans (gains_queueInLoop _ _ _)).mono le_rfl

/-- The return of a callback spends more than it brings. -/
theorem shifts_resume (hbooked : s.Booked) {w : WriteResult} (hs : s.step (.resume l w) = some t) :
    ∃ j m k, k < j ∧ Shifts l j m k s t := by
  cases step_spec hs with
  | @returned l w f hstack hf =>
    refine ⟨f.weight, l, 0, ?_, shifts_popFrame hstack l⟩
    rcases hf with hf | hf <;> exact hf ▸ Nat.zero_lt_one
  | established hstack =>
    exact ⟨1, l, 0, by decide, (shifts_popFrame hstack l).gains (gains_note _ _ _ _)⟩
  | @eventWrite l w c revents x hstack hfits hx =>
    obtain ⟨new, hnew, hcloses, hqueues⟩ := Io.handleEventWrite_new (hbooked.wired.sound c) hfits hx
    have hgains := gains_perform (s := s.popFrame l) hnew
    exact ⟨6, s.home c, 5, by decide,
      (shifts_popFrame hstack (s.home c)).gains (hgains.mono (by omega))⟩
  | @closed l w c hstack =>
    unfold removeConnection
    split
    · exact ⟨9, s.home c, 4, by decide,
        (shifts_popFrame hstack (s.home c)).gains (gains_removeConnectionInLoop (s.popFrame l) c)⟩
    · exact ⟨9, s.server.loop, 8, by decide,
        (shifts_popFrame hstack s.server.loop).gains (gains_queueInLoop _ _ (.removeConnectionInLoop c))⟩
  | @destroyed l w c x hstack hx =>
    have heffects : x.effects = (s.popFrame l).log c := (Io.remove_moves (hbooked.wired.sound c) hx).2.2
    exact ⟨1, l, 0, by decide, (shifts_popFrame hstack l).gains
      ((gains_quiet heffects l).trans (gains_note _ _ c .destroyed))⟩

/-- The dispatch of an event spends more than it brings. -/
theorem shifts_event (hbooked : s.Booked) {r : ReadResult} (hs : s.step (.event l r) = some t) :
    ∃ j m k, k < j ∧ Shifts l j m k s t := by
  cases step_spec hs with
  | @event l r c revents rest x hphase hstack hactive hlegal hx =>
    have hhome : s.home c = l :=
      (hbooked.records.active l (c, revents) (hactive ▸ List.mem_cons_self)).1
    obtain ⟨new, hnew, hcloses, hqueues⟩ := Io.handleEventRead_new (hbooked.wired.sound c) hlegal hx
    have hframe := (gains_note (s.popActive l) l c .handler).trans
      (gains_push _ l (.handleEvent c revents))
    have hperform := gains_perform (s := ((s.popActive l).note c .handler).push l (.handleEvent c revents))
      hnew
    rw [hqueues, show (((s.popActive l).note c .handler).push l (.handleEvent c revents)).home c = l
      from hhome] at hperform
    refine ⟨16, l, 15, by decide, (shifts_popActive (by simp [hactive]) l).gains
      ((hframe.trans hperform).mono ?_)⟩
    simp only [ServerFrame.weight, List.length_nil]
    omega

/-- A functor spends more than it brings. -/
theorem shifts_functor (hbooked : s.Booked) (hunshared : s.Unshared) {msg : Message} {w : WriteResult}
    {log : ErrnoTrail} (hs : s.step (.functor l msg w log) = some t) :
    ∃ j m k, k < j ∧ Shifts l j m k s t := by
  cases step_spec hs with
  | @establish l msg w log c x _ _ hfunctor hx =>
    have heffects : x.effects = ((s.popFunctor l).establishing c).log c ++ [.connectionCallback true] :=
      Io.connectEstablished_effects hx
    have hbegin := (gains_note (s.popFunctor l) (s.home c) c .establishing).trans
      (gains_push _ (s.home c) (.connectEstablished c))
    have hquiet : closes [.connectionCallback true] = 0 := by decide
    refine ⟨2, s.home c, 1, by decide, (shifts_popFunctor hfunctor (s.home c)).gains
      ((hbegin.trans (gains_perform heffects)).mono ?_)⟩
    rw [hquiet]
    exact le_rfl
  | @remove l msg w log c _ _ hfunctor =>
    exact ⟨5, s.home c, 4, by decide,
      (shifts_popFunctor hfunctor (s.home c)).gains (gains_removeConnectionInLoop (s.popFunctor l) c)⟩
  | @destroyNotify l msg w log c x _ _ hfunctor hstate _ =>
    have hdown : (s.conns c).state = .kDisconnected :=
      (hunshared.waiting l _ (mem_queued_of_head hfunctor)).2 rfl
    rw [hdown] at hstate
    contradiction
  | @destroy l msg w log c x _ _ hfunctor _ hx =>
    have heffects : x.effects = ((s.popFunctor l).note c .destroying).log c :=
      (Io.remove_moves (hbooked.wired.sound c) hx).2.2
    have hdone := ((gains_note (s.popFunctor l) l c .destroying).trans (gains_quiet heffects l)).trans
      (gains_note _ l c .destroyed)
    exact ⟨1, l, 0, by decide, (shifts_popFunctor hfunctor l).gains hdone⟩
  | @callback l msg w log c _ _ hfunctor =>
    have hbegin := (gains_note (s.popFunctor l) (s.home c) c .notification).trans
      (gains_push _ (s.home c) (.callback c))
    exact ⟨2, s.home c, 1, by decide,
      (shifts_popFunctor hfunctor (s.home c)).gains (hbegin.mono le_rfl)⟩
  | @sendInLoop l msg w log c x _ _ hfunctor _ =>
    exact absurd (hunshared.waiting l _ (mem_queued_of_head hfunctor)).1 (by simp [ServerFunctor.raw])
  | @shutdownInLoop l msg w log c _ _ hfunctor =>
    exact absurd (hunshared.waiting l _ (mem_queued_of_head hfunctor)).1 (by simp [ServerFunctor.raw])

/-- A turn of one loop spends work of this loop only. -/
theorem shifts_turn (hloops : t.loops = s.loops) (hsame : ∀ l' ≠ l, t.work l' = s.work l')
    (hless : t.work l + 1 ≤ s.work l) : Shifts l 1 l 0 s t := by
  refine ⟨hloops, fun l' => ?_⟩
  by_cases hl : l' = l
  · subst hl
    simpa using hless
  · simp [hl, hsame l' hl]

/-- The next step of a loop that is not idle spends more than it brings. -/
theorem shifts_next (hbooked : s.Booked) (hunshared : s.Unshared) {a : TurnAnswer} (hbusy : ¬ s.idle l)
    (hs : s.step (s.turn l a) = some t) : ∃ j m k, k < j ∧ Shifts l j m k s t := by
  have hemptied := hbooked.records.emptied l
  unfold turn at hs
  split at hs
  · exact shifts_resume hbooked hs
  · rename_i hstack hphase
    have hpending : s.pendingFunctors l ≠ [] := fun hnil => hbusy ⟨hphase, hnil⟩
    cases step_spec hs with
    | poll =>
      refine ⟨1, l, 0, by decide, shifts_turn rfl (fun l' hl => ?_) ?_⟩
      · simp [work, turns, queued, hl]
      · simp [work, turns, queued, hphase, hpending]
  · rename_i hstack hphase hactive
    cases step_spec hs with
    | doPendingFunctors =>
      obtain ⟨hfunctors, -⟩ := hemptied (by simp [hphase])
      refine ⟨1, l, 0, by decide, shifts_turn rfl (fun l' hl => ?_) ?_⟩
      · simp [work, turns, queued, hl]
      · simp [work, turns, queued, hphase, hfunctors]
  · exact shifts_event hbooked hs
  · rename_i hstack hphase hfunctors
    cases step_spec hs with
    | loopAgain =>
      refine ⟨1, l, 0, by decide, shifts_turn rfl (fun l' hl => ?_) ?_⟩
      · simp [work, turns, queued, hl]
      · simp [work, turns, queued, hphase]
        split <;> omega
  · exact shifts_functor hbooked hunshared hs

end ServerSystem

/-- From every state of a run of a server in which user code keeps no reference, a server that is left to
itself comes to rest within its workload, whichever of the loops with work takes the next turn and
whatever the kernel answers, as long as the buffers can take what is read, and at rest no close is lost and
no connection leaks. -/
theorem server_comesToRest {L : Type*} [DecidableEq L] (d : Deployment L) (labels : List (ServerLabel L))
    (h : Along ServerSystem.step (fun _ label => label.takesNothing = true) d.listening labels)
    (pick : ServerSystem L → L)
    (hpick : ∀ s : ServerSystem L, ¬ s.atRest → pick s ∈ s.loops ∧ ¬ s.idle (pick s))
    (answer : ServerSystem L → TurnAnswer) (hfits : ∀ s : ServerSystem L, s.Fits (pick s) (answer s)) :
    Everywhere ServerSystem.step
      (fun s => ∃ n ≤ s.workload, ∃ t,
        drive ServerSystem.step (fun s => s.turn (pick s) (answer s)) n s = some t ∧ t.atRest ∧
          ∀ c, .inserted ∈ t.life c → t.Rested c)
      d.listening labels := by
  refine everywhere_of_along (I := fun s => s.Booked ∧ s.Unshared ∧ s.Accounted) (fun s hs => ?_)
    (fun _ _ _ hs hnothing hstep =>
      ⟨hs.1.step hstep, hs.2.1.step hs.1 hnothing hstep, hs.2.2.step hs.1 hstep⟩)
    ⟨d.listening_booked, d.listening_unshared, d.listening_accounted⟩ h
  have hlowers (s : ServerSystem L) (hs : s.Booked ∧ s.Unshared ∧ s.Accounted) (hrest : ¬ s.atRest) :
      ∃ t, s.step (s.turn (pick s) (answer s)) = some t ∧ (t.Booked ∧ t.Unshared ∧ t.Accounted) ∧
        t.workload < s.workload := by
    obtain ⟨hbooked, hunshared, haccounted⟩ := hs
    obtain ⟨hloop, hbusy⟩ := hpick s hrest
    obtain ⟨t, ht⟩ := Option.isSome_iff_exists.mp (hunshared.turn_isSome hbooked (hfits s))
    obtain ⟨j, m, k, hlt, hshifts⟩ := ServerSystem.shifts_next hbooked hunshared hbusy ht
    refine ⟨t, ht, ⟨hbooked.step ht, hunshared.step hbooked ?_ ht, haccounted.step hbooked ht⟩,
      hshifts.lowers hloop hlt⟩
    unfold ServerSystem.turn
    split <;> rfl
  obtain ⟨n, hn, t, hdrive, ht, hrest⟩ := drive_of_rank hlowers hs
  exact ⟨n, hn, t, hdrive, hrest, fun c hc => ht.2.2.rested ht.1.records hrest hc⟩

/-- Behind the dispatch of a hang-up, with the close still to be carried through. -/
theorem server_comesToRest_hangup :
    Everywhere ServerSystem.step
      (fun s => ∃ n ≤ s.workload, ∃ t, drive ServerSystem.step
        (fun s => s.turn () ⟨.failed 0, .accepted 0, ⟨0, [], by decide⟩, ⟨id, id⟩⟩) n s = some t ∧
          t.atRest ∧ ∀ c, .inserted ∈ t.life c → t.Rested c)
      Deployment.loopback.listening
      [.poll () [], .accept, .resume () (.accepted 0), .resume () (.accepted 0), .doPendingFunctors (),
        .loopAgain (), .poll () [(1, EPOLLHUP)], .event () (.failed 0)] := by
  refine server_comesToRest _ _ (by decide +kernel) (fun _ => ()) (fun s hrest => ?_)
    (fun _ => ⟨.failed 0, .accepted 0, ⟨0, [], by decide⟩, ⟨id, id⟩⟩) fun _ =>
      ⟨fun _ _ _ => by simp [WriteResult.fits], fun _ _ _ => ⟨rfl, trivial⟩⟩
  exact ⟨List.mem_cons_self, fun hidle => hrest fun _ _ => hidle⟩

end CcMuduo
