import CcMuduo.IoLoop.Invariant

/-!
# `connectDestroyed` on an I/O loop

`connectDestroyed` starts as a functor or on the loop thread's stack, and it has two halves: the callback
of a connection that is still connected, and `remove`. Each keeps the invariant, and `remove` finds a
connection that is down, whichever way it came there.
-/

namespace CcMuduo

open Foundation

namespace IoLoop

variable {C : Type*} [DecidableEq C] {s s' : IoLoop C} {strict : Prop} {c : C}

/-- The frame of an event is no `connectDestroyed`. -/
theorem countP_handleEvent (d : C) (revents : Mask) (rest : List (Frame C)) :
    (Frame.handleEvent d revents :: rest).countP (·.destroys c) = rest.countP (·.destroys c) := by
  simp [Frame.destroys]

theorem any_handleEvent (d : C) (revents : Mask) (rest : List (Frame C)) :
    (Frame.handleEvent d revents :: rest).any (·.destroys c) = rest.any (·.destroys c) := by
  simp [Frame.destroys]

/-- The frame of a `connectDestroyed` counts for its connection only. -/
theorem countP_connectDestroyed (c d : C) (rest : List (Frame C)) :
    (Frame.connectDestroyed c :: rest).countP (·.destroys d) =
      rest.countP (·.destroys d) + if c = d then 1 else 0 := by
  simp [List.countP_cons, Frame.destroys]

theorem any_connectDestroyed_self (c : C) (rest : List (Frame C)) :
    (Frame.connectDestroyed c :: rest).any (·.destroys c) = true := by
  simp [Frame.destroys]

theorem any_connectDestroyed_of_ne {d : C} (hne : d ≠ c) (rest : List (Frame C)) :
    (Frame.connectDestroyed c :: rest).any (·.destroys d) = rest.any (·.destroys d) := by
  simp [Frame.destroys, Ne.symm hne]

/-- `connectDestroyed` was not handed out for a connection when it is not queued, started or done. -/
theorem handed_eq_zero : s.handed c = 0 ↔
    s.queued.countP (·.destroys c) = 0 ∧ s.leaving c = false ∧ s.destroyed c = [] := by
  unfold handed leaving
  rw [Nat.add_eq_zero_iff, Nat.add_eq_zero_iff, List.length_eq_zero_iff, and_assoc]
  simp [List.countP_eq_zero]

/-- A connection the server still has in its map has not been handed out. -/
theorem Core.handed_of_mem (h : Core strict s) (hmem : s.connections c = true) : s.handed c = 0 := by
  have hle := h.handed_le c
  rw [hmem] at hle
  simpa using hle

/-- A connection that `connectDestroyed` was not handed out for is live. -/
theorem live_of_handed (h : s.handed c = 0) : s.live strict c :=
  .inr (.inr (handed_eq_zero.mp h).2.2)

/-- A connection that is down and not on its way out waits for no handler. -/
theorem Ready.not_waits (h : Ready strict s c) (hlive : s.live strict c)
    (hdown : (s.conns c).state = .kDisconnected) (hleaving : strict ∨ s.leaving c = false) :
    s.waits c = false := by
  rw [← Bool.not_eq_true]
  intro hwaits
  rcases h.waiting hwaits hlive with hopen | ⟨hstrict, hleaving'⟩
  · exact (Io.ne_of_isOpen (s := s.io c) hopen).2 hdown
  · rcases hleaving with hstrict' | hleaving
    · exact hstrict hstrict'
    · simp [hleaving] at hleaving'

/-- What `remove` leaves behind a settled connection that is down. -/
theorem destroyed_eq_clean {x y : Io} (h : x.Settled) (hdown : x.conn.state = .kDisconnected)
    (hremove : x.onChannel Channel.remove = .ok y) : y.destroyed = .clean := by
  obtain ⟨-, hstate, hgone⟩ := Io.remove_keeps h.toSound hdown hremove
  obtain ⟨hmap, hset, heffects⟩ := hgone h
  have hhistory : ups x.effects = 1 ∧ downs x.effects = 1 ∧ closes x.effects ≤ 1 := by
    have := h.history
    rwa [hdown] at this
  simp [Io.destroyed, Destroyed.clean, hstate, hmap, hset, heffects, hhistory.1, hhistory.2.1]

/-- The record of a return that has left the end state. -/
theorem Core.record (h : Core strict s) (hhanded : s.handed c = 0)
    (hgone : s.connections c = false) (hdown : (s.conns c).state = .kDisconnected)
    {destroyed : C → List Destroyed} (hself : destroyed c = [.clean])
    (hother : ∀ d, d ≠ c → destroyed d = s.destroyed d) :
    Core strict ({ s with destroyed := destroyed } : IoLoop C) := by
  obtain ⟨hqueued, hleaving, hnone⟩ := handed_eq_zero.mp hhanded
  have hempty (d : C) (hd : destroyed d = []) : s.destroyed d = [] := by
    by_cases hne : d = c
    · rw [hne, hnone]
    · rw [← hother d hne, hd]
  refine { h with settled := ?_, handed_le := ?_, down := ?_, clean := ?_ }
  · exact fun d hlive => h.settled d (hlive.imp_right (.imp_right (hempty d)))
  · intro d
    have hle := h.handed_le d
    unfold handed at hle hhanded
    change s.queued.countP (·.destroys d) + s.stack.countP (·.destroys d) + (destroyed d).length +
      (s.connections d).toNat ≤ 1
    by_cases hne : d = c
    · subst hne
      rw [hself, hgone, List.length_singleton, Bool.toNat_false]
      omega
    · rwa [hother d hne]
  · intro d hd
    by_cases hne : d = c
    · exact hne ▸ hdown
    · exact h.down d fun hd' => hd ((hother d hne).trans hd')
  · intro d e he
    by_cases hne : d = c
    · subst hne
      change e ∈ destroyed d at he
      rw [hself] at he
      exact List.mem_singleton.mp he
    · change e ∈ destroyed d at he
      rw [hother d hne] at he
      exact h.clean d e he

/-- The record is about one connection. -/
theorem Ready.record {d : C} (h : Ready strict s d) {destroyed : C → List Destroyed}
    (hother : destroyed d = s.destroyed d) :
    Ready strict ({ s with destroyed := destroyed } : IoLoop C) d := by
  refine ⟨fun hwaits hlive => h.waiting hwaits ?_, h.leaving⟩
  exact hlive.imp_right (.imp_right hother.symm.trans)

/-- `connectDestroyed` from `remove` on. -/
theorem Core.finishDestroy (h : Core strict s) (hready : ∀ d, d ≠ c → Ready strict s d)
    (hhanded : s.handed c = 0) (hgone : s.connections c = false)
    (hdown : (s.conns c).state = .kDisconnected)
    (hwaits : strict ∨ s.serverAlive = true → s.waits c = false)
    (hs : s.finishDestroy c = some s') : Inv strict s' := by
  obtain ⟨t, hexec, rfl⟩ := Option.map_eq_some_iff.mp hs
  obtain ⟨x, hx, rfl⟩ := exec_eq_some.mp hexec
  obtain ⟨-, hleaving, hnone⟩ := handed_eq_zero.mp hhanded
  have hsettled := h.settled c (live_of_handed hhanded)
  obtain ⟨hkeeps, hdown', -⟩ := Io.remove_keeps (h.sound c) hdown hx
  have hput := h.put hkeeps.moves fun _ => hkeeps.settled hsettled
  have hclean := destroyed_eq_clean hsettled hdown hx
  have hself : Function.update (s.put c x).destroyed c
      ((s.put c x).destroyed c ++ [((s.put c x).io c).destroyed]) c = [.clean] := by
    rw [Function.update_self, put_io_self, hclean]
    exact congrArg (· ++ [Destroyed.clean]) hnone
  have hother (d : C) (hne : d ≠ c) := Function.update_of_ne hne
    ((s.put c x).destroyed c ++ [((s.put c x).io c).destroyed]) (s.put c x).destroyed
  refine ⟨hput.record hhanded hgone ?_ hself hother, fun d => ?_⟩
  · rw [put_conns_self]
    exact hdown'
  · by_cases hne : d = c
    · subst hne
      refine ⟨fun hwait hlive => ?_, fun hleave => ?_⟩
      · have hlive' : strict ∨ s.serverAlive = true := by
          rcases hlive with hstrict | halive | hempty
          · exact .inl hstrict
          · exact .inr halive
          · have := hself.symm.trans hempty
            contradiction
        have := (hwaits hlive').symm.trans hwait
        contradiction
      · have := hleaving.symm.trans hleave
        contradiction
    · exact ((hready d hne).put_of_ne hne x).record (hother d hne)

/-- A change of the stack that leaves one connection where it is in `connectDestroyed`. -/
theorem Ready.withStack {d : C} (h : Ready strict s d) {stack : List (Frame C)}
    (hsame : stack.any (·.destroys d) = s.leaving d) :
    Ready strict ({ s with stack := stack } : IoLoop C) d := by
  refine ⟨fun hwaits hlive => ?_, fun hleave => h.leaving (hsame.symm.trans hleave)⟩
  exact (h.waiting hwaits hlive).imp_right (.imp_right hsame.trans)

/-- Entering `connectDestroyed`, outside `kDisconnecting`. -/
theorem Inv.connectDestroyed (h : Inv strict s) (hhanded : s.handed c = 0)
    (hgone : s.connections c = false) (hbegun : (s.conns c).state ≠ .kConnecting)
    (horderly : (s.conns c).state ≠ .kDisconnecting)
    (halive : (s.conns c).state = .kConnected → s.serverAlive = false)
    (hspared : strict → s.waits c = false) (hs : s.connectDestroyed c = some s') :
    Inv strict s' := by
  unfold IoLoop.connectDestroyed at hs
  obtain ⟨-, hleaving, -⟩ := handed_eq_zero.mp hhanded
  have hlive : s.live strict c := live_of_handed hhanded
  split at hs
  · rename_i hstate
    obtain ⟨x, hx, rfl⟩ := exec_eq_some.mp hs
    obtain ⟨hkeeps, hdown⟩ := Io.notifyDestroyed_keeps (h.core.sound c) hstate hx
    have hpush : Core strict ({ s with stack := .connectDestroyed c :: s.stack } : IoLoop C) := by
      refine { h.core with handed_le := fun d => ?_ }
      have hle := h.core.handed_le d
      unfold handed at hle hhanded
      change s.queued.countP (·.destroys d) +
        (Frame.connectDestroyed c :: s.stack).countP (·.destroys d) + (s.destroyed d).length +
          (s.connections d).toNat ≤ 1
      rw [countP_connectDestroyed]
      split
      · rename_i heq
        subst heq
        rw [hgone, Bool.toNat_false]
        omega
      · omega
    refine ⟨hpush.put hkeeps.moves fun _ => hkeeps.settled (h.core.settled c hlive), fun d => ?_⟩
    by_cases hne : d = c
    · subst hne
      refine ⟨fun hwaits _ => .inr ⟨fun hstrict => ?_, any_connectDestroyed_self d _⟩,
        fun _ => ⟨?_, halive hstate⟩⟩
      · have := (hspared hstrict).symm.trans hwaits
        contradiction
      · rw [put_conns_self]
        exact hdown
    · exact ((h.ready d).withStack (any_connectDestroyed_of_ne hne _)).put_of_ne hne x
  · rename_i hstate
    have hdown : (s.conns c).state = .kDisconnected := by
      cases hcase : (s.conns c).state <;> simp_all
    exact h.core.finishDestroy (fun d _ => h.ready d) hhanded hgone hdown
      (fun _ => (h.ready c).not_waits hlive hdown (.inr hleaving)) hs

/-- The callback of an event returns. -/
theorem Inv.resumeEvent (h : Inv strict s) {revents : Mask} {rest : List (Frame C)}
    (hstack : s.stack = .handleEvent c revents :: rest) {w : WriteResult}
    (hfits : w.fits (s.conns c).outputBuffer.readableBytes = true)
    (hs : ({ s with stack := rest } : IoLoop C).exec c (·.handleEventWrite revents w) = some s') :
    Inv strict s' := by
  have hpop : Inv strict ({ s with stack := rest } : IoLoop C) := by
    refine ⟨{ h.core with handed_le := fun e => ?_ }, fun e => (h.ready e).withStack ?_⟩
    · have hle := h.core.handed_le e
      unfold handed at hle
      rwa [hstack, countP_handleEvent] at hle
    · rw [leaving, hstack, any_handleEvent]
  obtain ⟨x, hx, rfl⟩ := exec_eq_some.mp hs
  exact hpop.keepsOpen (Io.handleEventWrite_keeps (hpop.core.sound c) hfits hx)

/-- The callback of `connectDestroyed` returns: the connection is down, and its server is gone. -/
theorem Inv.resumeDestroy (h : Inv strict s) {rest : List (Frame C)}
    (hstack : s.stack = .connectDestroyed c :: rest)
    (hs : ({ s with stack := rest } : IoLoop C).finishDestroy c = some s') : Inv strict s' := by
  have hleaving : s.leaving c = true := by
    rw [leaving, hstack]
    exact any_connectDestroyed_self c rest
  obtain ⟨hdown, halive⟩ := (h.ready c).leaving hleaving
  have hle (e : C) : s.queued.countP (·.destroys e) +
      (rest.countP (·.destroys e) + if c = e then 1 else 0) + (s.destroyed e).length +
        (s.connections e).toNat ≤ 1 := by
    have hle := h.core.handed_le e
    unfold handed at hle
    rwa [hstack, countP_connectDestroyed] at hle
  have hpop : Core strict ({ s with stack := rest } : IoLoop C) := by
    refine { h.core with handed_le := fun e => ?_ }
    have := hle e
    change s.queued.countP (·.destroys e) + rest.countP (·.destroys e) + (s.destroyed e).length +
      (s.connections e).toNat ≤ 1
    omega
  have hself := hle c
  rw [if_pos rfl] at hself
  refine hpop.finishDestroy (fun e hne => (h.ready e).withStack ?_) ?_ ?_ hdown ?_ hs
  · rw [leaving, hstack, any_connectDestroyed_of_ne hne]
  · change s.queued.countP (·.destroys c) + rest.countP (·.destroys c) + (s.destroyed c).length = 0
    omega
  · change s.connections c = false
    rw [← Bool.toNat_eq_zero]
    omega
  · rintro (hstrict | halive')
    · exact (h.ready c).not_waits (.inl hstrict) hdown (.inl hstrict)
    · have := halive.symm.trans halive'
      contradiction

/-- A callback returns. -/
theorem Inv.resume (h : Inv strict s) {w : WriteResult} (hs : s.resume w = some s') :
    Inv strict s' := by
  unfold IoLoop.resume at hs
  split at hs
  · rename_i d revents rest hstack
    split at hs
    · rename_i hfits
      exact h.resumeEvent hstack hfits hs
    · contradiction
  · rename_i d rest hstack
    exact h.resumeDestroy hstack hs
  · contradiction

end IoLoop

end CcMuduo
