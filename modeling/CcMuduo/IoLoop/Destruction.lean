import CcMuduo.IoLoop.Quiescence

/-!
# The end state of a connection

`connectDestroyed` is entered behind a close, or from the server's destructor at any moment. It takes a
connection down that is in `kConnected` and leaves every other state as it is, so it leaves the end
state behind when it finds the connection connected or down.
-/

namespace CcMuduo

open Foundation

namespace IoLoop

variable {C : Type*} [DecidableEq C]

/-- Every return of `connectDestroyed` has left the end state, and no functor behind it has touched the
socket or the poller. -/
def Terminal (s : IoLoop C) : Prop :=
  ∀ c, (∀ e ∈ s.destroyed c, e = .clean) ∧ s.late c = false

instance (s : IoLoop Bool) : Decidable s.Terminal := by
  unfold Terminal
  infer_instance

/-- The invariant has the end state on record. -/
theorem Inv.terminal {strict : Prop} {s : IoLoop C} (h : Inv strict s) : s.Terminal :=
  fun c => ⟨h.core.clean c, h.core.punctual c⟩

/-- `connectDestroyed` completes on a connection that it was not handed out for before. -/
theorem Inv.connectDestroyed_isSome {strict : Prop} {s : IoLoop C} (h : Inv strict s) {c : C}
    (hhanded : s.handed c = 0) : (s.connectDestroyed c).isSome = true := by
  have hsettled := h.core.settled c (live_of_handed hhanded)
  unfold IoLoop.connectDestroyed
  split
  · obtain ⟨x, hx⟩ := hsettled.notifyDestroyed
    exact Option.isSome_iff_exists.mpr ⟨_, exec_eq_some.mpr ⟨x, hx, rfl⟩⟩
  · obtain ⟨x, hx⟩ := hsettled.remove
    rw [IoLoop.finishDestroy, Option.isSome_map]
    exact Option.isSome_iff_exists.mpr ⟨_, exec_eq_some.mpr ⟨x, hx, rfl⟩⟩

end IoLoop

/-- `connectDestroyed` is terminal in every state of a run in which it is not entered in
`kDisconnecting`, and `shutdown` on another thread does not store over a connection that is down. -/
theorem terminal_of_orderly {C : Type*} [DecidableEq C] (fleet : Fleet C) (labels : List (IoLabel C))
    (h : Along IoLoop.step IoLoop.Orderly fleet.start labels) :
    Everywhere IoLoop.step IoLoop.Terminal fleet.start labels :=
  everywhere_of_along (I := IoLoop.Inv False) (fun _ hinv => hinv.terminal)
    (fun _ _ _ hinv hc hs => hinv.step hc False.elim hs) (fleet.start_inv False) h

/-- A connection is destroyed with its server while its event waits and a functor is on its way to it,
and another one behind its close. -/
theorem terminal_while_connected :
    let labels : List (IoLabel Bool) := [.establish false, .establish true, .otherSend true .two,
      .poll [(false, EPOLLIN), (true, EPOLLIN)], .event (.received []), .removeConnection false,
      .destroyServer, .destroy true, .resume (.accepted 0), .resume (.accepted 0), .otherQueue 0,
      .event (.received [2]), .resume (.accepted 0), .doPendingFunctors, .functor (.accepted 0) .plain,
      .functor (.accepted 2) .plain]
    (run IoLoop.step Fleet.pair.start labels).isSome = true ∧
      Along IoLoop.step IoLoop.Orderly Fleet.pair.start labels ∧
      Everywhere IoLoop.step IoLoop.Terminal Fleet.pair.start labels :=
  ⟨by decide +kernel, by decide +kernel, terminal_of_orderly Fleet.pair _ (by decide +kernel)⟩

/-- A connection whose `shutdown` has been called is destroyed with its server: it stays in
`kDisconnecting`, and nobody is told that it is down. -/
theorem not_terminal_after_shutdown :
    ¬ Everywhere IoLoop.step IoLoop.Terminal Fleet.pair.start
      [.establish false, .shutdown false, .destroyServer, .destroy false] := by
  decide +kernel

end CcMuduo
