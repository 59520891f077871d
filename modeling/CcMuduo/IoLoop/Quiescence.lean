import CcMuduo.IoLoop.Steps

/-!
# Quiescence after the close

`handleClose` does not test the state, and neither does the dispatch of an event that waits in
`activeChannels`. What keeps a connection quiet behind its close is that a closed channel is not polled
again, and that nothing closes it in front of its own event of the same batch. A write of user code that
finds the socket broken would do so, but the process does not live to see its `handleClose`.
-/

namespace CcMuduo

open Foundation

namespace IoLoop

variable {C : Type*} [DecidableEq C]

/-- No connection has delivered a message behind its down notification, or has been told down or closed
twice. -/
def Quiescent (s : IoLoop C) : Prop :=
  ∀ c, Quiet (s.log c) ∧ closes (s.log c) ≤ 1 ∧ downs (s.log c) ≤ 1

instance (s : IoLoop Bool) : Decidable s.Quiescent := by
  unfold Quiescent Quiet
  infer_instance

/-- A settled connection has been told down and closed once at most. -/
theorem settled_counts {x : Io} (h : x.Settled) : closes x.effects ≤ 1 ∧ downs x.effects ≤ 1 := by
  have hhistory := h.history
  cases hstate : x.conn.state <;> simp only [hstate, History] at hhistory <;> omega

/-- The invariant for all connections, destroyed or not, makes them quiescent. -/
theorem Inv.quiescent {s : IoLoop C} (h : Inv True s) : s.Quiescent := by
  intro c
  have hsettled := h.core.settled c (.inl trivial)
  exact ⟨hsettled.quiet, settled_counts hsettled⟩

end IoLoop

/-- Every connection of a loop is quiescent in every state of every run. `Orderly` and `Spared` ask nothing
of the loop thread and of its user code as long as the server lives: only that `shutdown` on another thread
does not store over a connection that is down, and that the server's destructor finds no connection in
`kDisconnecting` or in front of its own event. -/
theorem quiescent_of_orderly {C : Type*} [DecidableEq C] (fleet : Fleet C) (labels : List (IoLabel C))
    (h : Along IoLoop.step (fun s l => s.Orderly l ∧ s.Spared l) fleet.start labels) :
    Everywhere IoLoop.step IoLoop.Quiescent fleet.start labels :=
  everywhere_of_along (I := IoLoop.Inv True) (fun _ hinv => hinv.quiescent)
    (fun _ _ _ hinv hc hs => hinv.step hc.1 (fun _ => hc.2) hs) (fleet.start_inv True) h

/-- A message of two bytes. -/
def Message.two : Message := ⟨0, [104, 105], by decide⟩

/-- Nothing between a failed `::write` and the tests of `errno` changes it. -/
def ErrnoTrail.plain : ErrnoTrail := ⟨id, id⟩

/-- A connection sends on the other one and shuts it down from its message callback, in front of the other
one's event; that event closes the other one, whose close callback sends on both. The closed connection is
destroyed, a message of another thread reaches the open one, and the next event closes that one too. -/
theorem quiescent_across_batch :
    let labels : List (IoLabel Bool) := [.establish false, .establish true, .otherSend true .two,
      .poll [(true, EPOLLIN), (false, EPOLLIN)], .event (.received [1]),
      .send false .two (.failed EWOULDBLOCK) .plain, .shutdown false, .resume (.accepted 0),
      .event (.received []), .send false .two (.accepted 2) .plain, .send true .two (.accepted 1) .plain,
      .removeConnection false, .otherQueue 0, .resume (.accepted 0), .doPendingFunctors,
      .functor (.accepted 0) .plain, .functor (.accepted 2) .plain, .loopAgain,
      .poll [(true, EPOLLHUP)], .event (.received []), .removeConnection true, .resume (.accepted 0)]
    (run IoLoop.step Fleet.pair.start labels).isSome = true ∧
      Along IoLoop.step (fun s l => s.Orderly l ∧ s.Spared l) Fleet.pair.start labels ∧
      Everywhere IoLoop.step IoLoop.Quiescent Fleet.pair.start labels :=
  ⟨by decide +kernel, by decide +kernel, quiescent_of_orderly Fleet.pair _ (by decide +kernel)⟩

end CcMuduo
