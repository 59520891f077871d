import CcMuduo.TcpServer.Bookkeeping
import Mathlib.Data.Fintype.Basic

/-!
# Functors without a reference

`send` and `shutdown` on another thread bind the raw pointer of the connection. The thread keeps its
`TcpConnectionPtr` while it is in the call, and may release it before the functor runs. Then the connection
must be kept by something else until all its raw functors have run: the map; the `connectDestroyed` that
its removal queues, which runs behind them; or a vector of `doPendingFunctors` with a functor that holds
the connection, when none of the raw functors is left for the next vector.
-/

namespace CcMuduo

open Foundation

namespace ServerSystem

variable {L : Type*} (s : ServerSystem L)

/-- A raw functor of the connection waits. -/
def rawWaits (c : ℕ) : Prop := ∃ f ∈ s.queued (s.home c), f.raw = true ∧ f.target = c

/-- A functor that is queued for the next vector holds the connection. -/
def heldLater (c : ℕ) : Prop := ∃ f ∈ s.pendingFunctors (s.home c), f.holds c = true

/-- The connection is kept until the raw functors that wait have run: it is in the map, it is about to be
removed, a functor behind them holds it, or one of the vector does and they are all in the vector. -/
def kept (c : ℕ) : Prop :=
  .removed ∉ s.life c ∨ .removeConnectionInLoop c ∈ s.queued s.server.loop ∨
    .handleClose c ∈ s.stack (s.home c) ∨ s.heldLater c ∨
    (∃ f ∈ s.called (s.home c) ++ s.functors (s.home c), f.holds c = true) ∧
      ∀ f ∈ s.pendingFunctors (s.home c), f.raw = true → f.target ≠ c

/-- When user code releases its last reference to a connection for which a raw functor waits, the
connection is kept by something else. -/
def ReleasesKept : ServerLabel L → Prop
  | .release c => s.pointers c = 1 → s.rawWaits c → s.kept c
  | _ => True

instance (c : ℕ) : Decidable (s.rawWaits c) := inferInstanceAs (Decidable (∃ f ∈ _, _))

instance (c : ℕ) : Decidable (s.heldLater c) := inferInstanceAs (Decidable (∃ f ∈ _, _))

instance (c : ℕ) : Decidable (s.kept c) := inferInstanceAs (Decidable (_ ∨ _ ∨ _ ∨ _ ∨ _ ∧ _))

instance (label : ServerLabel L) : Decidable (s.ReleasesKept label) := by
  unfold ReleasesKept
  cases label <;> infer_instance

/-- A connection with a raw functor has a reference of user code, or is kept. -/
def Covered : Prop := ∀ c, s.rawWaits c → 0 < s.pointers c ∨ s.kept c

/-- From the one state to the other no raw functor is queued, and whatever keeps a connection is there or
has been followed by something else. -/
structure Carries (s s' : ServerSystem L) : Prop where
  waits : ∀ c, s'.rawWaits c → s.rawWaits c ∨ s'.kept c
  pointers : s'.pointers = s.pointers
  kept : ∀ c, s.kept c → s'.kept c

variable {s} {s' s'' t : ServerSystem L} {c : ℕ} {l : L} {x : Io}

/-- One change after another. -/
theorem Carries.trans (h : s.Carries s') (h' : s'.Carries s'') : s.Carries s'' :=
  ⟨fun c hc => (h'.waits c hc).elim (fun hc => (h.waits c hc).imp_right (h'.kept c)) .inr,
    h'.pointers.trans h.pointers, fun c hc => h'.kept c (h.kept c hc)⟩

/-- What is carried stays covered. -/
theorem Covered.carries (h : s.Covered) (hcarries : s.Carries s') : s'.Covered := by
  intro c hc
  rcases hcarries.waits c hc with hc | hc
  · exact (h c hc).imp (fun hp => hcarries.pointers ▸ hp) (hcarries.kept c)
  · exact .inr hc

/-- What does not touch queues, stacks, references and the erasures. -/
theorem Carries.of_same (hlife : ∀ c, .removed ∈ t.life c → .removed ∈ s.life c)
    (hserver : t.server.loop = s.server.loop) (hhome : t.home = s.home)
    (hstack : ∀ l f, f ∈ s.stack l → f ∈ t.stack l) (hpending : t.pendingFunctors = s.pendingFunctors)
    (hcalled : t.called = s.called) (hfunctors : t.functors = s.functors)
    (hpointers : t.pointers = s.pointers) : s.Carries t := by
  have hqueued : t.queued = s.queued := by
    unfold queued
    rw [hfunctors, hpending]
  refine ⟨fun c hc => .inl ?_, hpointers, fun c hc => ?_⟩
  · unfold rawWaits at hc ⊢
    rwa [hqueued, hhome] at hc
  · rcases hc with hc | hc | hc | hc | hc
    · exact .inl (mt (hlife c) hc)
    · exact .inr (.inl (by rwa [hqueued, hserver]))
    · exact .inr (.inr (.inl (hhome ▸ hstack _ _ hc)))
    · exact .inr (.inr (.inr (.inl (by rwa [heldLater, hpending, hhome]))))
    · exact .inr (.inr (.inr (.inr (by rwa [hcalled, hfunctors, hpending, hhome]))))

/-- Recording an event that is not the erasure. -/
theorem carries_note {e : LifeEvent} (he : e ≠ .removed) (s : ServerSystem L) (c : ℕ) :
    s.Carries (s.note c e) :=
  .of_same (fun _ hd => (mem_note.mp hd).resolve_right fun hd => he hd.2.symm) rfl rfl (fun _ _ => id)
    rfl rfl rfl rfl

/-- A new connection has no raw functor, and is in the map. -/
theorem carries_insert (h : s.Records) {ioLoop : L} {connName : List Char} {server : TcpServer L}
    (hnew : s.server.newConnection = some (ioLoop, connName, c, server)) :
    s.Carries (s.insert ioLoop connName c server) := by
  obtain ⟨-, -, hc, pool, hserver, -⟩ := TcpServer.newConnection_spec hnew
  set t := s.insert ioLoop connName c server
  have hfresh : .removed ∉ t.life c := by
    rw [show t.life c = s.life c ++ [.inserted] from Function.update_self _ _ _, h.fresh c hc.ge]
    decide
  have hloop : t.server.loop = s.server.loop := by
    change server.loop = _
    rw [hserver]
  have hhome {d : ℕ} (hd : d ≠ c) : t.home d = s.home d := Function.update_of_ne hd _ _
  refine ⟨fun d hd => ?_, rfl, fun d hd => ?_⟩
  · by_cases hdc : d = c
    · exact .inr (.inl (hdc ▸ hfresh))
    · refine .inl ?_
      unfold rawWaits at hd
      rwa [hhome hdc] at hd
  · by_cases hdc : d = c
    · exact .inl (hdc ▸ hfresh)
    · unfold kept heldLater
      rw [hhome hdc, hloop, show t.life d = s.life d from Function.update_of_ne hdc _ _]
      exact hd

/-- Another number of references: none of user code's last ones is given up for a connection with a raw
functor that nothing else keeps. -/
theorem Covered.refer (h : s.Covered) {n : ℕ}
    (hmay : 0 < s.pointers c → n = 0 → s.rawWaits c → s.kept c) :
    ({ s with pointers := Function.update s.pointers c n } : ServerSystem L).Covered := by
  intro d hd
  by_cases hdc : d = c
  · subst hdc
    by_cases hn : n = 0
    · exact .inr ((h d hd).elim (fun hp => hmay hp hn hd) id)
    · refine .inl ?_
      change 0 < Function.update s.pointers d n d
      rw [Function.update_self]
      exact Nat.pos_of_ne_zero hn
  · refine (h d hd).imp_left fun hp => ?_
    change 0 < Function.update s.pointers c n d
    rwa [Function.update_of_ne hdc]

variable [DecidableEq L]

/-- A raw functor that is about to run finds its connection. -/
def RawAlive (s : ServerSystem L) : Prop :=
  ∀ l, s.phase l = .callingPendingFunctors → s.stack l = [] → ∀ f ∈ (s.functors l).head?,
    f.raw = true → s.strong f.target = true

instance [Fintype L] (s : ServerSystem L) : Decidable s.RawAlive :=
  inferInstanceAs (Decidable (∀ l, _ → _ → ∀ f ∈ (s.functors l).head?, _))

/-- A function comes to user code. -/
theorem carries_push (s : ServerSystem L) (l : L) (f : ServerFrame) : s.Carries (s.push l f) :=
  .of_same (fun _ => id) rfl rfl (fun _ _ hg => mem_push.mpr (.inl hg)) rfl rfl rfl rfl

/-- A functor is queued that holds its connection. -/
theorem carries_queueInLoop {f : ServerFunctor} (hraw : f.raw = false) (s : ServerSystem L) (l : L) :
    s.Carries (s.queueInLoop l f) := by
  have hpending (l' : L) (g : ServerFunctor) : g ∈ (s.queueInLoop l f).pendingFunctors l' ↔
      g ∈ s.pendingFunctors l' ∨ l' = l ∧ g = f := by
    unfold queueInLoop
    by_cases hl : l' = l
    · subst hl
      simp
    · simp [hl]
  refine ⟨fun c hc => .inl ?_, rfl, fun c hc => ?_⟩
  · obtain ⟨g, hg, hraw', htarget⟩ := hc
    refine ⟨g, (mem_queueInLoop.mp hg).resolve_right ?_, hraw', htarget⟩
    rintro ⟨-, rfl⟩
    rw [hraw] at hraw'
    contradiction
  · rcases hc with hc | hc | hc | ⟨g, hg, hholds⟩ | ⟨hholder, hnone⟩
    · exact .inl hc
    · exact .inr (.inl (mem_queueInLoop.mpr (.inl hc)))
    · exact .inr (.inr (.inl hc))
    · exact .inr (.inr (.inr (.inl ⟨g, (hpending _ g).mpr (.inl hg), hholds⟩)))
    · refine .inr (.inr (.inr (.inr ⟨hholder, fun g hg hraw' => ?_⟩)))
      rcases (hpending _ g).mp hg with hg | ⟨-, rfl⟩
      · exact hnone g hg hraw'
      · rw [hraw] at hraw'
        contradiction

/-- A function of a connection. -/
theorem carries_perform (s : ServerSystem L) (c : ℕ) (x : Io) : s.Carries (s.perform c x) := by
  have hput : s.Carries (s.put c x) := .of_same (fun _ => id) rfl rfl (fun _ _ => id) rfl rfl rfl rfl
  refine starts_induction (P := s.Carries) _ (fun t ht => ?_) (fun t ht => ?_) (fun _ t ht => ?_) hput
  · exact ht.trans (carries_queueInLoop rfl t _)
  · exact ht.trans (carries_note (by decide) t c)
  · exact ht.trans (carries_push t _ _)

/-- `connectDestroyed` waits in the queue of the connection's loop behind its removal. -/
theorem heldLater_of_removeConnectionInLoop (s : ServerSystem L) (c : ℕ) :
    (s.removeConnectionInLoop c).heldLater c := by
  refine ⟨.connectDestroyed c, ?_, by simp [ServerFunctor.holds, ServerFunctor.raw, ServerFunctor.target]⟩
  change _ ∈ Function.update s.pendingFunctors (s.home c) _ (s.home c)
  rw [Function.update_self]
  exact List.mem_append_right _ List.mem_cons_self

/-- `removeConnectionInLoop` hands the connection to `connectDestroyed`. -/
theorem carries_removeConnectionInLoop (s : ServerSystem L) (c : ℕ) :
    s.Carries (s.removeConnectionInLoop c) := by
  have hqueue := carries_queueInLoop (f := .connectDestroyed c) rfl s (s.home c)
  refine hqueue.trans ⟨fun d hd => .inl hd, rfl, fun d hd => ?_⟩
  by_cases hdc : d = c
  · subst hdc
    exact .inr (.inr (.inr (.inl (heldLater_of_removeConnectionInLoop s d))))
  · refine hd.imp_left (mt fun hremoved => ?_)
    exact (mem_note.mp hremoved).resolve_right fun h => hdc h.1

/-- `removeConnection` does so at once or through the base loop. -/
theorem carries_removeConnection (s : ServerSystem L) (c : ℕ) : s.Carries (s.removeConnection c) := by
  unfold removeConnection
  split
  · exact carries_removeConnectionInLoop s c
  · exact carries_queueInLoop rfl s _

/-- A function is left, `handleClose` when its removal is on its way. -/
theorem carries_popFrame {f : ServerFrame} (hhead : (s.stack l).head? = some f)
    (hclose : ∀ c, f = .handleClose c →
      s.heldLater c ∨ .removeConnectionInLoop c ∈ s.queued s.server.loop) : s.Carries (s.popFrame l) := by
  refine ⟨fun c hc => .inl hc, rfl, fun c hc => ?_⟩
  rcases hc with hc | hc | hc | hc
  · exact .inl hc
  · exact .inr (.inl hc)
  · rcases mem_popFrame_or_eq hhead hc with hkept | hleft
    · exact .inr (.inr (.inl hkept))
    · rcases hclose c hleft.symm with hheld | hremove
      · exact .inr (.inr (.inr (.inl hheld)))
      · exact .inr (.inl hremove)
  · exact .inr (.inr (.inr hc))

/-- A functor is taken, `removeConnectionInLoop` when its connection is held behind it. -/
theorem carries_popFunctor {f : ServerFunctor} (hhead : (s.functors l).head? = some f)
    (hremove : ∀ c, f = .removeConnectionInLoop c → s.heldLater c) : s.Carries (s.popFunctor l) := by
  have hvector (l' : L) : (s.popFunctor l).called l' ++ (s.popFunctor l).functors l' =
      s.called l' ++ s.functors l' := by
    by_cases hl : l' = l
    · subst hl
      obtain ⟨rest, hrest⟩ := List.head?_eq_some_iff.mp hhead
      simp [popFunctor, hrest]
    · simp [popFunctor, hl]
  refine ⟨fun c hraw => .inl ?_, rfl, fun c hc => ?_⟩
  · obtain ⟨g, hg, hraw⟩ := hraw
    exact ⟨g, mem_queued_of_popFunctor hhead hg, hraw⟩
  rcases hc with hc | hc | hc | hc | hc
  · exact .inl hc
  · rcases mem_queued_popFunctor hhead hc with heq | hstill
    · exact .inr (.inr (.inr (.inl (hremove c heq.symm))))
    · exact .inr (.inl hstill)
  · exact .inr (.inr (.inl hc))
  · exact .inr (.inr (.inr (.inl hc)))
  · refine .inr (.inr (.inr (.inr ?_)))
    rw [hvector]
    exact hc

/-- The vector is taken: what held a connection for it is in it, and no raw functor is behind. -/
theorem carries_doPendingFunctors (h : s.Records) (hphase : s.phase l = .dispatching) :
    s.Carries { s with
      phase := Function.update s.phase l .callingPendingFunctors
      functors := Function.update s.functors l (s.pendingFunctors l)
      pendingFunctors := Function.update s.pendingFunctors l [] } := by
  set t : ServerSystem L := { s with
    phase := Function.update s.phase l .callingPendingFunctors
    functors := Function.update s.functors l (s.pendingFunctors l)
    pendingFunctors := Function.update s.pendingFunctors l [] }
  obtain ⟨hfunctors, hcalled⟩ := h.emptied l (by simp [hphase])
  have hqueued (l' : L) : t.queued l' = s.queued l' := by
    by_cases hl : l' = l
    · subst hl
      simp [t, queued, hfunctors]
    · simp [t, queued, hl]
  refine ⟨fun c hc => .inl ?_, rfl, fun c hc => ?_⟩
  · obtain ⟨g, hg, hraw⟩ := hc
    exact ⟨g, hqueued _ ▸ hg, hraw⟩
  · rcases hc with hc | hc | hc | ⟨g, hg, hholds⟩ | ⟨⟨g, hg, hholds⟩, hnone⟩
    · exact .inl hc
    · exact .inr (.inl ((hqueued _).symm ▸ hc))
    · exact .inr (.inr (.inl hc))
    · by_cases hl : s.home c = l
      · subst hl
        refine .inr (.inr (.inr (.inr ⟨⟨g, List.mem_append_right _ ?_, hholds⟩, ?_⟩)))
        · change g ∈ Function.update s.functors _ _ _
          rwa [Function.update_self]
        · intro f hf
          change f ∈ Function.update s.pendingFunctors _ _ _ at hf
          rw [Function.update_self] at hf
          contradiction
      · refine .inr (.inr (.inr (.inl ⟨g, ?_, hholds⟩)))
        change g ∈ Function.update s.pendingFunctors _ _ _
        rwa [Function.update_of_ne hl]
    · have hl : s.home c ≠ l := by
        rintro rfl
        rw [hcalled, hfunctors] at hg
        contradiction
      refine .inr (.inr (.inr (.inr ⟨⟨g, ?_, hholds⟩, fun f hf => hnone f ?_⟩)))
      · change g ∈ s.called _ ++ Function.update s.functors _ _ _
        rwa [Function.update_of_ne hl]
      · change f ∈ Function.update s.pendingFunctors _ _ _ at hf
        rwa [Function.update_of_ne hl] at hf

/-- `doPendingFunctors` returns: a connection that was kept for its vector has no raw functor left. -/
theorem Covered.loopAgain (h : s.Covered) (hfunctors : s.functors l = []) :
    ({ s with
      phase := Function.update s.phase l .polling
      called := Function.update s.called l [] } : ServerSystem L).Covered := by
  intro c hc
  rcases h c hc with hp | hc' | hc' | hc' | hc' | ⟨hholder, hnone⟩
  · exact .inl hp
  · exact .inr (.inl hc')
  · exact .inr (.inr (.inl hc'))
  · exact .inr (.inr (.inr (.inl hc')))
  · exact .inr (.inr (.inr (.inr (.inl hc'))))
  · by_cases hl : s.home c = l
    · obtain ⟨g, hg, hraw, htarget⟩ := hc
      change g ∈ s.functors (s.home c) ++ s.pendingFunctors (s.home c) at hg
      rw [hl, hfunctors, List.nil_append, ← hl] at hg
      exact absurd htarget (hnone g hg hraw)
    · refine .inr (.inr (.inr (.inr (.inr ⟨?_, hnone⟩))))
      obtain ⟨g, hg, hholds⟩ := hholder
      refine ⟨g, ?_, hholds⟩
      change g ∈ Function.update s.called l [] (s.home c) ++ _
      rwa [Function.update_of_ne hl]

/-- The functor of another thread is queued while the thread has its reference. -/
theorem Covered.otherQueue (h : s.Covered) (hrecords : s.Records) {i : ℕ} {f : ServerFunctor}
    (hi : s.posting[i]? = some f) :
    (({ s with posting := s.posting.eraseIdx i } : ServerSystem L).queueInLoop
      (s.home f.target) f).Covered := by
  intro d hd
  by_cases hdf : d = f.target
  · exact .inl (hdf ▸ (hrecords.posting f (List.mem_of_getElem? hi)).2)
  have hwaits : s.rawWaits d := by
    obtain ⟨g, hg, hraw, htarget⟩ := hd
    refine ⟨g, (mem_queueInLoop.mp hg).resolve_right ?_, hraw, htarget⟩
    rintro ⟨-, rfl⟩
    exact hdf htarget.symm
  refine (h d hwaits).imp_right fun hkept => ?_
  have hpending (g : ServerFunctor) :
      g ∈ Function.update s.pendingFunctors (s.home f.target)
        (s.pendingFunctors (s.home f.target) ++ [f]) (s.home d) ↔
      g ∈ s.pendingFunctors (s.home d) ∨ s.home d = s.home f.target ∧ g = f := by
    by_cases hl : s.home d = s.home f.target
    · rw [hl]
      simp
    · simp [hl]
  rcases hkept with hc | hc | hc | ⟨g, hg, hholds⟩ | ⟨hholder, hnone⟩
  · exact .inl hc
  · exact .inr (.inl (mem_queueInLoop.mpr (.inl hc)))
  · exact .inr (.inr (.inl hc))
  · exact .inr (.inr (.inr (.inl ⟨g, (hpending g).mpr (.inl hg), hholds⟩)))
  · refine .inr (.inr (.inr (.inr ⟨hholder, fun g hg hraw => ?_⟩)))
    rcases (hpending g).mp hg with hg | ⟨-, rfl⟩
    · exact hnone g hg hraw
    · exact Ne.symm hdf

/-- Every step keeps the connections with a raw functor covered, when it is no release that must not
be. -/
theorem Covered.step (h : s.Covered) (hbooked : s.Booked) {label : ServerLabel L}
    (hmay : s.ReleasesKept label) (hs : s.step label = some s') : s'.Covered := by
  have hrecords := hbooked.records
  cases step_spec hs with
  | @acceptHere connName c server x _ _ hnew _ =>
    have hinsert := carries_insert hrecords hnew
    have hestablishing (t : ServerSystem L) : t.Carries (t.establishing c) :=
      (carries_note (by decide) t c).trans (carries_push _ _ _)
    exact h.carries (((hinsert.trans (carries_push _ _ _)).trans (hestablishing _)).trans
      (carries_perform _ c x))
  | acceptAway _ hnew =>
    exact h.carries ((carries_insert hrecords hnew).trans (carries_queueInLoop rfl _ _))
  | poll =>
    exact h.carries (.of_same (fun _ => id) rfl rfl (fun _ _ => id) rfl rfl rfl rfl)
  | @event l r c revents rest x _ _ _ _ _ =>
    have hpop : s.Carries (s.popActive l) :=
      .of_same (fun _ => id) rfl rfl (fun _ _ => id) rfl rfl rfl rfl
    exact h.carries (((hpop.trans (carries_note (by decide) _ c)).trans (carries_push _ _ _)).trans
      (carries_perform _ c x))
  | returned hstack hf =>
    refine h.carries (carries_popFrame hstack fun c hc => ?_)
    subst hc
    rcases hf with hf | hf <;> contradiction
  | @established l w c hstack =>
    exact h.carries ((carries_popFrame hstack fun d hd => (nomatch hd)).trans
      (carries_note (by decide) _ c))
  | @eventWrite l w c revents x hstack _ _ =>
    exact h.carries ((carries_popFrame hstack fun d hd => (nomatch hd)).trans (carries_perform _ c x))
  | @closed l w c hstack =>
    have hremove := carries_removeConnection s c
    have hpop : (s.removeConnection c).Carries ((s.removeConnection c).popFrame l) := by
      have hhead : ((s.removeConnection c).stack l).head? = some (.handleClose c) := by
        unfold removeConnection
        split <;> exact hstack
      refine carries_popFrame hhead fun d hd => ?_
      obtain rfl := ServerFrame.handleClose.inj hd
      unfold removeConnection
      split
      · exact .inl (heldLater_of_removeConnectionInLoop s c)
      · exact .inr (mem_queueInLoop.mpr (.inr ⟨rfl, rfl⟩))
    have hswap : (s.popFrame l).removeConnection c = (s.removeConnection c).popFrame l := by
      unfold removeConnection
      by_cases hbase : s.home c = s.server.loop
      · rw [if_pos hbase, if_pos (show (s.popFrame l).home c = (s.popFrame l).server.loop from hbase)]
        rfl
      · rw [if_neg hbase, if_neg (show (s.popFrame l).home c ≠ (s.popFrame l).server.loop from hbase)]
        rfl
    exact hswap ▸ h.carries (hremove.trans hpop)
  | @destroyed l w c x hstack _ =>
    exact h.carries (((carries_popFrame hstack fun d hd => (nomatch hd)).trans
      (carries_perform _ c x)).trans (carries_note (by decide) _ c))
  | doPendingFunctors hphase _ _ => exact h.carries (carries_doPendingFunctors hrecords hphase)
  | @establish l msg w log c x _ _ hfunctor _ =>
    exact h.carries ((((carries_popFunctor hfunctor fun d hd => (nomatch hd)).trans
      (carries_note (by decide) _ c)).trans (carries_push _ _ _)).trans (carries_perform _ c x))
  | @remove l msg w log c _ _ hfunctor =>
    have hpop : (s.removeConnectionInLoop c).Carries ((s.removeConnectionInLoop c).popFunctor l) := by
      refine carries_popFunctor hfunctor fun d hd => ?_
      obtain rfl := ServerFunctor.removeConnectionInLoop.inj hd
      exact heldLater_of_removeConnectionInLoop s c
    exact h.carries ((carries_removeConnectionInLoop s c).trans hpop)
  | @destroyNotify l msg w log c x _ _ hfunctor _ _ =>
    exact h.carries ((((carries_popFunctor hfunctor fun d hd => (nomatch hd)).trans
      (carries_note (by decide) _ c)).trans (carries_push _ _ _)).trans (carries_perform _ c x))
  | @destroy l msg w log c x _ _ hfunctor _ _ =>
    exact h.carries ((((carries_popFunctor hfunctor fun d hd => (nomatch hd)).trans
      (carries_note (by decide) _ c)).trans (carries_perform _ c x)).trans (carries_note (by decide) _ c))
  | @callback l msg w log c _ _ hfunctor =>
    exact h.carries (((carries_popFunctor hfunctor fun d hd => (nomatch hd)).trans
      (carries_note (by decide) _ c)).trans (carries_push _ _ _))
  | @sendInLoop l msg w log c x _ _ hfunctor _ =>
    exact h.carries ((carries_popFunctor hfunctor fun d hd => (nomatch hd)).trans (carries_perform _ c x))
  | @shutdownInLoop l msg w log c _ _ hfunctor =>
    exact h.carries ((carries_popFunctor hfunctor fun d hd => (nomatch hd)).trans (carries_perform _ c _))
  | loopAgain _ hfunctors _ => exact h.loopAgain hfunctors
  | @call c call x _ _ _ => exact h.carries (carries_perform s c x)
  | take => exact h.refer fun _ hn => absurd hn (Nat.succ_ne_zero _)
  | release hpointers _ =>
    refine h.refer fun _ hn => hmay ?_
    omega
  | otherSend | otherShutdown | otherStore =>
    exact h.carries (.of_same (fun _ => id) rfl rfl (fun _ _ => id) rfl rfl rfl rfl)
  | otherQueue hi => exact h.otherQueue hrecords hi

/-- A raw functor that is about to run finds a connection that is covered. -/
theorem Covered.rawAlive (h : s.Covered) (hrecords : s.Records) : s.RawAlive := by
  intro l _ _ f hf hraw
  have hmem : f ∈ s.queued l := mem_queued_of_head hf
  obtain ⟨hloop, hinserted, -⟩ := hrecords.waiting l f hmem
  have hhome : s.home f.target = l := (loopOf_of_raw hraw).1.symm.trans hloop
  have hl := hrecords.homed _ hinserted
  rcases h f.target ⟨f, hhome.symm ▸ hmem, hraw, rfl⟩ with
    hp | hc | hc | hc | ⟨g, hg, hholds⟩ | ⟨⟨g, hg, hholds⟩, -⟩
  · exact strong_of_pointers hp
  · exact strong_of_map ((hrecords.map _ _).mpr ⟨rfl, hinserted, hc⟩)
  · exact strong_of_functor List.mem_cons_self (List.mem_append_right _ hc)
      (by simp [ServerFunctor.holds, ServerFunctor.raw, ServerFunctor.target])
  · exact strong_of_frame hl hc rfl
  · exact strong_of_functor hl (List.mem_append_right _ (List.mem_append_right _ hg)) hholds
  · refine strong_of_functor hl ?_ hholds
    rw [queued, ← List.append_assoc]
    exact List.mem_append_left _ hg

end ServerSystem

/-- In every run in which user code releases its last reference to a connection with a raw functor only
when something else keeps the connection, every raw functor finds its connection. -/
theorem rawFunctors_alive {L : Type*} [DecidableEq L] (d : Deployment L) (labels : List (ServerLabel L))
    (h : Along ServerSystem.step ServerSystem.ReleasesKept d.listening labels) :
    Everywhere ServerSystem.step ServerSystem.RawAlive d.listening labels := by
  refine everywhere_of_along (I := fun s => s.Booked ∧ s.Covered)
    (fun s hs => hs.2.rawAlive hs.1.records)
    (fun s label s' hs hmay hstep => ⟨hs.1.step hstep, hs.2.step hs.1 hmay hstep⟩)
    ⟨d.listening_booked, fun c hc => ?_⟩ h
  obtain ⟨f, hf, -⟩ := hc
  contradiction

/-- Another thread sends and releases its reference while the connection is in the map. -/
theorem rawFunctors_alive_in_map :
    let labels : List (ServerLabel Unit) := [.poll () [], .accept, .take 1, .resume () (.accepted 0),
      .resume () (.accepted 0), .otherSend 1, .otherQueue 0, .release 1, .doPendingFunctors (),
      .functor () ⟨0, [97], by decide⟩ (.accepted 1) ⟨id, id⟩]
    (run ServerSystem.step Deployment.loopback.listening labels).isSome = true ∧
      Everywhere ServerSystem.step ServerSystem.RawAlive Deployment.loopback.listening labels :=
  ⟨by decide +kernel, rawFunctors_alive _ _ (by decide +kernel)⟩

/-- Another thread is in `send`, behind the test of the state, when the connection is closed and
destroyed. It queues its functor and releases its reference, which was the last one. -/
theorem rawFunctor_without_connection :
    ¬ Everywhere ServerSystem.step ServerSystem.RawAlive Deployment.loopback.listening
      [.poll () [], .accept, .take 1, .resume () (.accepted 0), .resume () (.accepted 0), .otherSend 1,
        .doPendingFunctors (), .loopAgain (), .poll () [(1, EPOLLHUP)], .event () (.failed 0),
        .resume () (.accepted 0), .resume () (.accepted 0), .doPendingFunctors (),
        .functor () ⟨0, [97], by decide⟩ (.accepted 1) ⟨id, id⟩, .otherQueue 0, .release 1, .loopAgain (),
        .poll () [], .doPendingFunctors ()] := by
  decide +kernel

end CcMuduo
