import CcMuduo.Foundation.Checked
import CcMuduo.TcpServer.System

/-!
# What a step of the server does

`ServerSystem.Step` has one case for everything that a step can be, with the conditions under which it is
taken and the state it leaves, and `step_spec` says that these are all.
-/

namespace CcMuduo

open Foundation

namespace ServerSystem

variable {L : Type*} [DecidableEq L] {s s' : ServerSystem L}

/-- What a step does. -/
inductive Step (s : ServerSystem L) : ServerLabel L → ServerSystem L → Prop where
  | acceptHere {connName : List Char} {c : ℕ} {server : TcpServer L} {x : Io}
      (hstack : s.stack s.server.loop = []) (hid : s.server.nextConnId < 2 ^ 31)
      (hnew : s.server.newConnection = some (s.server.loop, connName, c, server))
      (hx : ((s.insert s.server.loop connName c server).io c).connectEstablished = .ok x) :
    Step s .accept ((((s.insert s.server.loop connName c server).push s.server.loop
      (.newConnection c)).establishing c).perform c x)
  | acceptAway {ioLoop : L} {connName : List Char} {c : ℕ} {server : TcpServer L}
      (hid : s.server.nextConnId < 2 ^ 31)
      (hnew : s.server.newConnection = some (ioLoop, connName, c, server)) :
    Step s .accept ((s.insert ioLoop connName c server).queueInLoop ioLoop (.connectEstablished c))
  | poll {l : L} {batch : List (ℕ × Mask)} (hphase : s.phase l = .polling) (hstack : s.stack l = [])
      (hnodup : (batch.map Prod.fst).Nodup)
      (hreports : ∀ e ∈ batch, (s.poller l).interest (s.conns e.1).channel.fd ≠ none) :
    Step s (.poll l batch) { s with
      phase := Function.update s.phase l .dispatching
      activeChannels := Function.update s.activeChannels l batch }
  | event {l : L} {r : ReadResult} {c : ℕ} {revents : Mask} {rest : List (ℕ × Mask)} {x : Io}
      (hphase : s.phase l = .dispatching) (hstack : s.stack l = [])
      (hactive : s.activeChannels l = (c, revents) :: rest)
      (hlegal : (ConnCall.handleRead r).legal (s.io c) = true)
      (hx : (s.io c).handleEventRead revents r = .ok x) :
    Step s (.event l r)
      ((((s.popActive l).note c .handler).push l (.handleEvent c revents)).perform c x)
  | returned {l : L} {w : WriteResult} {f : ServerFrame} (hstack : (s.stack l).head? = some f)
      (hf : f = .newConnection f.target ∨ f = .callback f.target) :
    Step s (.resume l w) (s.popFrame l)
  | established {l : L} {w : WriteResult} {c : ℕ}
      (hstack : (s.stack l).head? = some (.connectEstablished c)) :
    Step s (.resume l w) ((s.popFrame l).note c .established)
  | eventWrite {l : L} {w : WriteResult} {c : ℕ} {revents : Mask} {x : Io}
      (hstack : (s.stack l).head? = some (.handleEvent c revents))
      (hfits : w.fits (s.conns c).outputBuffer.readableBytes = true)
      (hx : (s.io c).handleEventWrite revents w = .ok x) :
    Step s (.resume l w) ((s.popFrame l).perform c x)
  | closed {l : L} {w : WriteResult} {c : ℕ} (hstack : (s.stack l).head? = some (.handleClose c)) :
    Step s (.resume l w) ((s.popFrame l).removeConnection c)
  | destroyed {l : L} {w : WriteResult} {c : ℕ} {x : Io}
      (hstack : (s.stack l).head? = some (.connectDestroyed c))
      (hx : (s.io c).onChannel Channel.remove = .ok x) :
    Step s (.resume l w) (((s.popFrame l).perform c x).note c .destroyed)
  | doPendingFunctors {l : L} (hphase : s.phase l = .dispatching) (hactive : s.activeChannels l = [])
      (hstack : s.stack l = []) :
    Step s (.doPendingFunctors l) { s with
      phase := Function.update s.phase l .callingPendingFunctors
      functors := Function.update s.functors l (s.pendingFunctors l)
      pendingFunctors := Function.update s.pendingFunctors l [] }
  | establish {l : L} {msg : Message} {w : WriteResult} {log : ErrnoTrail} {c : ℕ} {x : Io}
      (hphase : s.phase l = .callingPendingFunctors) (hstack : s.stack l = [])
      (hfunctor : (s.functors l).head? = some (.connectEstablished c))
      (hx : (s.io c).connectEstablished = .ok x) :
    Step s (.functor l msg w log) (((s.popFunctor l).establishing c).perform c x)
  | remove {l : L} {msg : Message} {w : WriteResult} {log : ErrnoTrail} {c : ℕ}
      (hphase : s.phase l = .callingPendingFunctors) (hstack : s.stack l = [])
      (hfunctor : (s.functors l).head? = some (.removeConnectionInLoop c)) :
    Step s (.functor l msg w log) ((s.popFunctor l).removeConnectionInLoop c)
  | destroyNotify {l : L} {msg : Message} {w : WriteResult} {log : ErrnoTrail} {c : ℕ} {x : Io}
      (hphase : s.phase l = .callingPendingFunctors) (hstack : s.stack l = [])
      (hfunctor : (s.functors l).head? = some (.connectDestroyed c))
      (hstate : (s.conns c).state = .kConnected) (hx : (s.io c).notifyDestroyed = .ok x) :
    Step s (.functor l msg w log) ((((s.popFunctor l).note c .destroying).push (s.home c)
      (.connectDestroyed c)).perform c x)
  | destroy {l : L} {msg : Message} {w : WriteResult} {log : ErrnoTrail} {c : ℕ} {x : Io}
      (hphase : s.phase l = .callingPendingFunctors) (hstack : s.stack l = [])
      (hfunctor : (s.functors l).head? = some (.connectDestroyed c))
      (hstate : (s.conns c).state ≠ .kConnected) (hx : (s.io c).onChannel Channel.remove = .ok x) :
    Step s (.functor l msg w log)
      ((((s.popFunctor l).note c .destroying).perform c x).note c .destroyed)
  | callback {l : L} {msg : Message} {w : WriteResult} {log : ErrnoTrail} {c : ℕ}
      (hphase : s.phase l = .callingPendingFunctors) (hstack : s.stack l = [])
      (hfunctor : (s.functors l).head? = some (.callback c)) :
    Step s (.functor l msg w log)
      (((s.popFunctor l).note c .notification).push (s.home c) (.callback c))
  | sendInLoop {l : L} {msg : Message} {w : WriteResult} {log : ErrnoTrail} {c : ℕ} {x : Io}
      (hphase : s.phase l = .callingPendingFunctors) (hstack : s.stack l = [])
      (hfunctor : (s.functors l).head? = some (.sendInLoop c))
      (hx : callStep (s.io c) (.sendInLoop msg w log) = some x) :
    Step s (.functor l msg w log) ((s.popFunctor l).perform c x)
  | shutdownInLoop {l : L} {msg : Message} {w : WriteResult} {log : ErrnoTrail} {c : ℕ}
      (hphase : s.phase l = .callingPendingFunctors) (hstack : s.stack l = [])
      (hfunctor : (s.functors l).head? = some (.shutdownInLoop c)) :
    Step s (.functor l msg w log) ((s.popFunctor l).perform c (s.io c).shutdownInLoop)
  | loopAgain {l : L} (hphase : s.phase l = .callingPendingFunctors) (hfunctors : s.functors l = [])
      (hstack : s.stack l = []) :
    Step s (.loopAgain l) { s with
      phase := Function.update s.phase l .polling
      called := Function.update s.called l [] }
  | call {c : ℕ} {call : ConnCall} {x : Io} (hreaches : s.reaches c = true)
      (huser : call.byUser = true) (hx : callStep (s.io c) call = some x) :
    Step s (.call c call) (s.perform c x)
  | take {c : ℕ} (hreaches : s.reaches c = true ∨ 0 < s.pointers c) :
    Step s (.take c) { s with pointers := Function.update s.pointers c (s.pointers c + 1) }
  | release {c : ℕ} (hpointers : 0 < s.pointers c) (hcall : s.inCall c = true → 1 < s.pointers c) :
    Step s (.release c) { s with pointers := Function.update s.pointers c (s.pointers c - 1) }
  | otherSend {c : ℕ} (hpointers : 0 < s.pointers c) (hstate : (s.conns c).state = .kConnected) :
    Step s (.otherSend c) { s with posting := s.posting ++ [.sendInLoop c] }
  | otherShutdown {c : ℕ} (hpointers : 0 < s.pointers c) (hstate : (s.conns c).state = .kConnected) :
    Step s (.otherShutdown c) { s with storing := s.storing ++ [c] }
  | otherStore {i c : ℕ} {overwritten : Bool} (hi : s.storing[i]? = some c) :
    Step s (.otherStore i overwritten) { s with
      conns := Function.update s.conns c
        (if overwritten then s.conns c else { s.conns c with state := .kDisconnecting })
      storing := s.storing.eraseIdx i
      posting := s.posting ++ [.shutdownInLoop c] }
  | otherQueue {i : ℕ} {f : ServerFunctor} (hi : s.posting[i]? = some f) :
    Step s (.otherQueue i) (({ s with posting := s.posting.eraseIdx i } : ServerSystem L).queueInLoop
      (s.home f.target) f)

/-- A function of one connection completed. -/
theorem exec_eq_some {c : ℕ} {f : Io → Except Fault Io} (h : s.exec c f = some s') :
    ∃ x, f (s.io c) = .ok x ∧ s' = s.perform c x := by
  obtain ⟨x, hx, rfl⟩ := Option.map_eq_some_iff.mp h
  exact ⟨x, toOption_eq_some.mp hx, rfl⟩

/-- The end of `connectDestroyed` completed. -/
theorem finishDestroy_eq_some {c : ℕ} (h : s.finishDestroy c = some s') :
    ∃ x, (s.io c).onChannel Channel.remove = .ok x ∧ s' = (s.perform c x).note c .destroyed := by
  obtain ⟨t, ht, rfl⟩ := Option.map_eq_some_iff.mp h
  obtain ⟨x, hx, rfl⟩ := exec_eq_some ht
  exact ⟨x, hx, rfl⟩

/-- What `newConnection` does. -/
theorem newConnection_spec (h : s.newConnection = some s') : s.Step .accept s' := by
  obtain ⟨⟨-, hstack, hid⟩, hs⟩ := Option.ite_none_right_eq_some.mp h
  obtain ⟨⟨ioLoop, connName, c, server⟩, hnew, hs⟩ := Option.bind_eq_some_iff.mp hs
  dsimp only at hs
  split at hs
  · rename_i hhere
    subst hhere
    obtain ⟨x, hx, rfl⟩ := exec_eq_some hs
    exact .acceptHere hstack hid hnew hx
  · obtain rfl := Option.some.inj hs
    exact .acceptAway hid hnew

/-- What a poll does. -/
theorem poll_spec {l : L} {batch : List (ℕ × Mask)} (h : s.poll l batch = some s') :
    s.Step (.poll l batch) s' := by
  obtain ⟨⟨hphase, hstack, hnodup, hreports⟩, hs⟩ := Option.ite_none_right_eq_some.mp h
  obtain rfl := Option.some.inj hs
  refine .poll hphase hstack hnodup fun e he hnone => ?_
  have hreport := List.all_eq_true.mp hreports e he
  simp [hnone] at hreport

/-- What an event does. -/
theorem event_spec {l : L} {r : ReadResult} (h : s.event l r = some s') : s.Step (.event l r) s' := by
  unfold event at h
  split at h
  · rename_i hphase hstack hactive
    obtain ⟨⟨-, hlegal⟩, hs⟩ := Option.ite_none_right_eq_some.mp h
    obtain ⟨x, hx, rfl⟩ := exec_eq_some hs
    exact .event hphase hstack hactive hlegal hx
  · contradiction

/-- What the return of a callback does. -/
theorem resume_spec {l : L} {w : WriteResult} (h : s.resume l w = some s') :
    s.Step (.resume l w) s' := by
  obtain ⟨f, hstack, hs⟩ := Option.bind_eq_some_iff.mp h
  cases f with
  | newConnection c =>
    obtain rfl := Option.some.inj hs
    exact .returned hstack (.inl rfl)
  | callback c =>
    obtain rfl := Option.some.inj hs
    exact .returned hstack (.inr rfl)
  | connectEstablished c =>
    obtain rfl := Option.some.inj hs
    exact .established hstack
  | handleEvent c revents =>
    obtain ⟨hfits, hs⟩ := Option.ite_none_right_eq_some.mp hs
    obtain ⟨x, hx, rfl⟩ := exec_eq_some hs
    exact .eventWrite hstack hfits hx
  | handleClose c =>
    obtain rfl := Option.some.inj hs
    exact .closed hstack
  | connectDestroyed c =>
    obtain ⟨x, hx, rfl⟩ := finishDestroy_eq_some hs
    exact .destroyed hstack hx

/-- What a functor does. -/
theorem functor_spec {l : L} {msg : Message} {w : WriteResult} {log : ErrnoTrail}
    (h : s.functor l msg w log = some s') : s.Step (.functor l msg w log) s' := by
  unfold functor at h
  split at h
  · rename_i f rest hphase hstack hfunctors
    have hhead : (s.functors l).head? = some f := by rw [hfunctors]; rfl
    cases f with
    | connectEstablished c =>
      obtain ⟨x, hx, rfl⟩ := exec_eq_some h
      exact .establish hphase hstack hhead hx
    | removeConnectionInLoop c =>
      obtain rfl := Option.some.inj h
      exact .remove hphase hstack hhead
    | connectDestroyed c =>
      simp only [runFunctor, connectDestroyed] at h
      split at h
      · rename_i hstate
        obtain ⟨x, hx, rfl⟩ := exec_eq_some h
        exact .destroyNotify hphase hstack hhead hstate hx
      · rename_i hstate
        obtain ⟨x, hx, rfl⟩ := finishDestroy_eq_some h
        exact .destroy hphase hstack hhead hstate hx
    | callback c =>
      obtain rfl := Option.some.inj h
      exact .callback hphase hstack hhead
    | sendInLoop c =>
      obtain ⟨-, hs⟩ := Option.ite_none_right_eq_some.mp h
      obtain ⟨x, hx, rfl⟩ := Option.map_eq_some_iff.mp hs
      exact .sendInLoop hphase hstack hhead hx
    | shutdownInLoop c =>
      obtain ⟨-, hs⟩ := Option.ite_none_right_eq_some.mp h
      obtain rfl := Option.some.inj hs
      exact .shutdownInLoop hphase hstack hhead
  · contradiction

/-- Every step is one of these. -/
theorem step_spec {label : ServerLabel L} (h : s.step label = some s') : s.Step label s' := by
  cases label with
  | accept => exact newConnection_spec h
  | poll l batch => exact poll_spec h
  | event l r => exact event_spec h
  | resume l w => exact resume_spec h
  | functor l msg w log => exact functor_spec h
  | doPendingFunctors l =>
    obtain ⟨⟨hphase, hactive, hstack⟩, hs⟩ := Option.ite_none_right_eq_some.mp h
    obtain rfl := Option.some.inj hs
    exact .doPendingFunctors hphase hactive hstack
  | loopAgain l =>
    obtain ⟨⟨hphase, hfunctors, hstack⟩, hs⟩ := Option.ite_none_right_eq_some.mp h
    obtain rfl := Option.some.inj hs
    exact .loopAgain hphase hfunctors hstack
  | call c call =>
    obtain ⟨⟨hreaches, huser⟩, hs⟩ := Option.ite_none_right_eq_some.mp h
    obtain ⟨x, hx, rfl⟩ := Option.map_eq_some_iff.mp hs
    exact .call hreaches huser hx
  | take c =>
    obtain ⟨hreaches, hs⟩ := Option.ite_none_right_eq_some.mp h
    obtain rfl := Option.some.inj hs
    exact .take hreaches
  | release c =>
    obtain ⟨⟨hpointers, hcall⟩, hs⟩ := Option.ite_none_right_eq_some.mp h
    obtain rfl := Option.some.inj hs
    exact .release hpointers hcall
  | otherSend c =>
    obtain ⟨⟨hpointers, hstate⟩, hs⟩ := Option.ite_none_right_eq_some.mp h
    obtain rfl := Option.some.inj hs
    exact .otherSend hpointers hstate
  | otherShutdown c =>
    obtain ⟨⟨hpointers, hstate⟩, hs⟩ := Option.ite_none_right_eq_some.mp h
    obtain rfl := Option.some.inj hs
    exact .otherShutdown hpointers hstate
  | otherStore i overwritten =>
    simp only [step, otherStore] at h
    split at h
    · contradiction
    · rename_i hi
      obtain rfl := Option.some.inj h
      exact .otherStore hi
  | otherQueue i =>
    simp only [step, otherQueue] at h
    split at h
    · contradiction
    · rename_i hi
      obtain rfl := Option.some.inj h
      exact .otherQueue hi

end ServerSystem

end CcMuduo
