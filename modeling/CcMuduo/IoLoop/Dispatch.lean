import CcMuduo.IoLoop.Destroying

/-!
# The dispatch of an I/O loop keeps the invariant

A poll reports open connections only, so an event finds its connection open unless something took it
down in between. A functor runs outside the dispatch, when no event waits, and finds a connection down
if it was destroyed before.
-/

namespace CcMuduo

open Foundation

namespace IoLoop

variable {C : Type*} [DecidableEq C] {s s' : IoLoop C} {strict : Prop} {c : C}

/-- Outside the dispatch no event waits. -/
theorem Core.not_waits (h : Core strict s) (hphase : s.phase ≠ .dispatching) : s.waits c = false := by
  rw [waits, h.idle hphase]
  rfl

/-- A poll reports open connections only. -/
theorem Inv.poll (h : Inv strict s) {batch : List (C × Mask)} (hs : s.poll batch = some s') :
    Inv strict s' := by
  unfold IoLoop.poll at hs
  split at hs
  · rename_i hguard
    obtain ⟨-, -, hnodup, hreports⟩ := hguard
    obtain rfl := Option.some.inj hs
    refine ⟨{ h.core with nodup := hnodup, idle := fun hphase => absurd rfl hphase },
      fun d => ⟨fun hwaits hlive => .inl ?_, (h.ready d).leaving⟩⟩
    obtain ⟨m, hmem, -⟩ := waits_iff.mp hwaits
    have hreport : s.reports d m = true := List.all_eq_true.mp hreports (d, m) hmem
    apply (h.core.settled d hlive).open_of_registered
    intro hnone
    change s.poller.interest (s.conns d).channel.fd = none at hnone
    simp [reports, hnone] at hreport
  · contradiction

/-- The dispatch of an event: its connection is open if it gets as far as a handler. -/
theorem Inv.event (h : Inv strict s) {r : ReadResult} (hs : s.event r = some s') :
    Inv strict s' := by
  unfold IoLoop.event at hs
  split at hs
  · rename_i d revents rest hphase hstack hactive
    split at hs
    · rename_i hlegal
      have hnodup := h.core.nodup
      rw [hactive, List.map_cons, List.nodup_cons] at hnodup
      have hempty (e : C) : s.leaving e = false := by
        rw [leaving, hstack]
        rfl
      have hpop : Inv strict
          ({ s with activeChannels := rest, stack := [.handleEvent d revents] } : IoLoop C) := by
        refine ⟨{ h.core with nodup := hnodup.2, idle := ?_, handed_le := fun e => ?_ },
          fun e => ⟨fun hwaits hlive => ?_, fun hleave => ?_⟩⟩
        · exact fun hother => absurd hphase hother
        · have hle := h.core.handed_le e
          unfold handed at hle
          rwa [hstack, ← countP_handleEvent d revents] at hle
        · obtain ⟨m, hmem, hreaches⟩ := waits_iff.mp hwaits
          have hwait : s.waits e = true :=
            waits_iff.mpr ⟨m, hactive ▸ List.mem_cons_of_mem _ hmem, hreaches⟩
          refine .inl (((h.ready e).waiting hwait hlive).resolve_right fun hleave => ?_)
          have := (hempty e).symm.trans hleave.2
          contradiction
        · change [Frame.handleEvent d revents].any (·.destroys e) = true at hleave
          rw [any_handleEvent] at hleave
          contradiction
      obtain ⟨x, hx, rfl⟩ := exec_eq_some.mp hs
      obtain ⟨hmoves, hsettled⟩ := Io.handleEventRead_keeps (h.core.sound d) hlegal hx
      refine hpop.put hmoves (fun hlive => hsettled (fun hreaches => ?_) (h.core.settled d hlive))
        fun hwaits => ?_
      · have hwait : s.waits d = true :=
          waits_iff.mpr ⟨revents, hactive ▸ List.mem_cons_self, hreaches⟩
        refine ((h.ready d).waiting hwait hlive).resolve_right fun hleave => ?_
        have := (hempty d).symm.trans hleave.2
        contradiction
      · obtain ⟨m, hmem, -⟩ := waits_iff.mp hwaits
        exact absurd (List.mem_map_of_mem hmem) hnodup.1
    · contradiction
  · contradiction

/-- A functor that does not touch a destroyed connection is not late. -/
theorem Inv.noteLate (h : Inv strict s')
    (htouches : s.destroyed c ≠ [] → (s.io c).touches (s'.io c) = false) :
    Inv strict (s.noteLate c s') := by
  refine ⟨{ h.core with punctual := fun d => ?_ }, fun d => ⟨(h.ready d).waiting, (h.ready d).leaving⟩⟩
  have htouched : (!(s.destroyed c).isEmpty && (s.io c).touches (s'.io c)) = false := by
    by_cases hempty : s.destroyed c = []
    · rw [hempty]
      rfl
    · rw [htouches hempty, Bool.and_false]
  change Function.update s'.late c _ d = false
  by_cases hne : d = c
  · subst hne
    rw [Function.update_self, h.core.punctual, htouched]
    rfl
  · rw [Function.update_of_ne hne]
    exact h.core.punctual d

/-- A connection that did nothing has touched nothing. -/
theorem not_touches_of_same {x y : Io} (hpoller : y.poller = x.poller)
    (hwrites : y.effects.countP Effect.isWrite = x.effects.countP Effect.isWrite) :
    x.touches y = false := by
  simp [Io.touches, hpoller, hwrites]

/-- The functor has left the vector. -/
theorem Inv.popFunctor (h : Inv strict s) {f : ConnFunctor C} {rest : List (ConnFunctor C)}
    (hfunctors : s.functors = f :: rest) : Inv strict ({ s with functors := rest } : IoLoop C) := by
  have hqueued : s.queued = f :: (rest ++ s.pendingFunctors ++ s.posting) := by
    rw [queued, hfunctors]
    rfl
  refine ⟨{ h.core with sending := ?_, removed := ?_, handed_le := ?_ },
    fun d => ⟨(h.ready d).waiting, (h.ready d).leaving⟩⟩
  · exact fun d msg hmem => h.core.sending d msg (hqueued ▸ List.mem_cons_of_mem f hmem)
  · exact fun halive d hmem => h.core.removed halive d (hqueued ▸ List.mem_cons_of_mem f hmem)
  · intro d
    have hle := h.core.handed_le d
    unfold handed at hle
    rw [hqueued, List.countP_cons] at hle
    change (rest ++ s.pendingFunctors ++ s.posting).countP (·.destroys d) +
      s.stack.countP (·.destroys d) + (s.destroyed d).length + (s.connections d).toNat ≤ 1
    omega

/-- A functor of the vector runs. -/
theorem Inv.functor (h : Inv strict s) {w : WriteResult} {log : ErrnoTrail}
    (horderly : s.Orderly (.functor w log)) (hs : s.functor w log = some s') : Inv strict s' := by
  unfold IoLoop.functor at hs
  split at hs
  case h_2 => contradiction
  rename_i f rest hphase hstack hfunctors
  have hpop := h.popFunctor hfunctors
  have hidle : s.phase ≠ .dispatching := by simp [hphase]
  have hmem : f ∈ s.queued := by simp [queued, hfunctors]
  cases f with
  | sendInLoop d msg =>
    simp only [runFunctor] at hs
    split at hs
    · rename_i hfits
      obtain ⟨t, hexec, rfl⟩ := Option.map_eq_some_iff.mp hs
      obtain ⟨x, hx, hlives, rfl⟩ := execSend_eq_some.mp hexec
      have hbegun := h.core.sending d msg hmem
      obtain ⟨-, hkeeps⟩ := Io.sendInLoop_keeps (h.core.sound d) hfits hbegun hx
      refine (hpop.keepsOpen (hkeeps hlives)).noteLate fun hdestroyed => ?_
      rw [put_io_self, Io.sendInLoop_down (h.core.down d hdestroyed) hx]
      exact not_touches_of_same rfl rfl
    · contradiction
  | shutdownInLoop d =>
    obtain rfl := Option.some.inj hs
    refine (hpop.keepsOpen (Io.shutdownInLoop_keeps (h.core.sound d))).noteLate fun _ => ?_
    rw [put_io_self]
    unfold Io.shutdownInLoop
    split
    · exact not_touches_of_same rfl (by simp [Io.emit, Effect.isWrite])
    · exact not_touches_of_same rfl rfl
  | connectDestroyed d =>
    simp only [runFunctor] at hs
    split at hs
    · rename_i hbegun
      have hle := h.core.handed_le d
      have hcount : s.handed d = ({ s with functors := rest } : IoLoop C).handed d + 1 := by
        unfold handed queued
        rw [hfunctors]
        simp only [List.cons_append, List.countP_cons, ConnFunctor.destroys_connectDestroyed,
          beq_self_eq_true, if_true]
        omega
      refine hpop.connectDestroyed (by omega) ?_ hbegun ?_ ?_ ?_ hs
      · change s.connections d = false
        rw [← Bool.toNat_eq_zero]
        omega
      · cases halive : s.serverAlive with
        | true =>
          intro hdisconnecting
          have hdown := h.core.removed halive d hmem
          rw [hdown] at hdisconnecting
          contradiction
        | false => exact horderly halive d (by rw [hfunctors]; rfl)
      · intro hconnected
        rw [← Bool.not_eq_true]
        intro halive
        have hdown := h.core.removed halive d hmem
        rw [hdown] at hconnected
        contradiction
      · exact fun _ => h.core.not_waits hidle
    · contradiction

end IoLoop

end CcMuduo
