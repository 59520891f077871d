import CcMuduo.IoLoop.Dispatch
import Mathlib.Data.List.Perm.Basic

/-!
# Every orderly step of an I/O loop keeps the invariant

The labels that move functors about, and `Inv.step` over all labels.
-/

namespace CcMuduo

open Foundation

namespace IoLoop

variable {C : Type*} [DecidableEq C] {s s' : IoLoop C} {strict : Prop} {c : C}

/-- The loop takes the queued functors. -/
theorem Inv.doPendingFunctors (h : Inv strict s) (hs : s.doPendingFunctors = some s') :
    Inv strict s' := by
  unfold IoLoop.doPendingFunctors at hs
  split at hs
  · rename_i hguard
    obtain ⟨-, hactive, -⟩ := hguard
    obtain rfl := Option.some.inj hs
    have hsub {f : ConnFunctor C} (hmem : f ∈ s.pendingFunctors ++ [] ++ s.posting) :
        f ∈ s.queued := by
      simp only [queued, List.append_nil, List.mem_append] at hmem ⊢
      exact hmem.imp_left .inr
    refine ⟨{ h.core with
      idle := fun _ => List.isEmpty_iff.mp hactive
      sending := fun d msg hmem => h.core.sending d msg (hsub hmem)
      removed := fun halive d hmem => h.core.removed halive d (hsub hmem)
      handed_le := fun d => ?_ }, fun d => ⟨(h.ready d).waiting, (h.ready d).leaving⟩⟩
    have hle := h.core.handed_le d
    unfold handed queued at hle ⊢
    simp only [List.countP_append, List.countP_nil] at hle ⊢
    omega
  · contradiction

/-- The loop goes back to its poll. -/
theorem Inv.loopAgain (h : Inv strict s) (hs : s.loopAgain = some s') : Inv strict s' := by
  unfold IoLoop.loopAgain at hs
  split at hs
  · rename_i hguard
    obtain rfl := Option.some.inj hs
    have hidle := h.core.idle (by simp [hguard.1])
    exact ⟨{ h.core with idle := fun _ => hidle }, fun d => ⟨(h.ready d).waiting, (h.ready d).leaving⟩⟩
  · contradiction

/-- Another thread binds a functor. -/
theorem Inv.post (h : Inv strict s) {f : ConnFunctor C} (hdestroys : ∀ d, f.destroys d = false)
    (hsend : ∀ d msg, f = .sendInLoop d msg → (s.conns d).state ≠ .kConnecting) :
    Inv strict ({ s with posting := s.posting ++ [f] } : IoLoop C) := by
  have hmem {g : ConnFunctor C} (hg : g ∈ s.functors ++ s.pendingFunctors ++ (s.posting ++ [f])) :
      g ∈ s.queued ∨ g = f := by
    simpa [queued, or_assoc] using hg
  refine ⟨{ h.core with sending := ?_, removed := ?_, handed_le := ?_ },
    fun d => ⟨(h.ready d).waiting, (h.ready d).leaving⟩⟩
  · intro d msg hg
    exact (hmem hg).elim (h.core.sending d msg) fun heq => hsend d msg heq.symm
  · intro halive d hg
    refine (hmem hg).elim (h.core.removed halive d) fun heq => ?_
    have := hdestroys d
    simp [← heq] at this
  · intro d
    have hle := h.core.handed_le d
    unfold handed queued at hle ⊢
    simp only [List.countP_append, List.countP_singleton, hdestroys] at hle ⊢
    simpa using hle

/-- Another thread is behind its store. -/
theorem Inv.eraseStoring (h : Inv strict s) (i : ℕ) :
    Inv strict ({ s with storing := s.storing.eraseIdx i } : IoLoop C) :=
  ⟨{ h.core with storing := fun d hd => h.core.storing d (List.eraseIdx_subset hd) },
    fun d => ⟨(h.ready d).waiting, (h.ready d).leaving⟩⟩

/-- Another thread stores `kDisconnecting` on a connection that is not down, or loses its store. -/
theorem Inv.otherStore (h : Inv strict s) {i : ℕ} {overwritten : Bool}
    (horderly : overwritten = false → ∀ c ∈ s.storing[i]?, (s.conns c).state ≠ .kDisconnected)
    (hs : s.otherStore i overwritten = some s') : Inv strict s' := by
  unfold IoLoop.otherStore at hs
  split at hs
  · contradiction
  · rename_i d hget
    obtain rfl := Option.some.inj hs
    cases overwritten with
    | true => exact (h.eraseStoring i).post (fun _ => rfl) (by simp)
    | false =>
      have hbegun := h.core.storing d (List.mem_of_getElem? hget)
      have hopen : (s.io d).conn.isOpen := Io.isOpen_of_ne hbegun (horderly rfl d hget)
      have hstore := h.keepsOpen (Io.setState_keeps (h.core.sound d) hopen)
      exact (hstore.eraseStoring i).post (fun _ => rfl) (by simp)

/-- Another thread queues its functor. -/
theorem Inv.otherQueue (h : Inv strict s) {i : ℕ} (hs : s.otherQueue i = some s') :
    Inv strict s' := by
  unfold IoLoop.otherQueue at hs
  split at hs
  · contradiction
  · rename_i f hget
    obtain rfl := Option.some.inj hs
    obtain ⟨hlt, heq⟩ := List.getElem?_eq_some_iff.mp hget
    have hperm : (s.functors ++ (s.pendingFunctors ++ [f]) ++ s.posting.eraseIdx i).Perm s.queued := by
      have herase : (f :: s.posting.eraseIdx i).Perm s.posting :=
        heq ▸ List.getElem_cons_eraseIdx_perm hlt
      have hmove := herase.append_left (s.functors ++ s.pendingFunctors)
      simpa [queued] using hmove
    refine ⟨{ h.core with
      sending := fun d msg hmem => h.core.sending d msg (hperm.mem_iff.mp hmem)
      removed := fun halive d hmem => h.core.removed halive d (hperm.mem_iff.mp hmem)
      handed_le := fun d => ?_ }, fun d => ⟨(h.ready d).waiting, (h.ready d).leaving⟩⟩
    have hle := h.core.handed_le d
    unfold handed at hle
    rwa [← hperm.countP_eq] at hle

/-- `connectDestroyed` is queued for a connection that leaves the server's map. -/
theorem Inv.hand (h : Inv strict s) (hhanded : s.handed c = 0) {removals : C → ℕ}
    (hremoved : s.serverAlive = true → (s.conns c).state = .kDisconnected)
    (hcounted : s.serverAlive = true → ∀ d, Function.update s.connections c false d = false →
      1 ≤ removals d) :
    Inv strict (({ s with
      removals := removals
      connections := Function.update s.connections c false } : IoLoop C).queueInLoop
        (.connectDestroyed c)) := by
  have hmem {f : ConnFunctor C}
      (hf : f ∈ s.functors ++ (s.pendingFunctors ++ [.connectDestroyed c]) ++ s.posting) :
      f ∈ s.queued ∨ f = .connectDestroyed c := by
    simp only [queued, List.mem_append, List.mem_singleton] at hf ⊢
    tauto
  refine ⟨{ h.core with
    sending := ?_, removed := ?_, handed_le := ?_, counted := hcounted },
    fun d => ⟨(h.ready d).waiting, (h.ready d).leaving⟩⟩
  · intro d msg hf
    exact h.core.sending d msg ((hmem hf).resolve_right (by simp))
  · intro halive d hf
    rcases hmem hf with hf | heq
    · exact h.core.removed halive d hf
    · obtain rfl := ConnFunctor.connectDestroyed.inj heq
      exact hremoved halive
  · intro d
    have hle := h.core.handed_le d
    unfold handed queued at hle hhanded
    simp only [List.countP_append] at hle hhanded
    change (s.functors ++ (s.pendingFunctors ++ [ConnFunctor.connectDestroyed c]) ++
      s.posting).countP (·.destroys d) + s.stack.countP (·.destroys d) + (s.destroyed d).length +
        (Function.update s.connections c false d).toNat ≤ 1
    simp only [List.countP_append, List.countP_singleton]
    by_cases hne : d = c
    · subst hne
      simp only [ConnFunctor.destroys_connectDestroyed, beq_self_eq_true, if_true,
        Function.update_self, Bool.toNat_false]
      omega
    · simp only [ConnFunctor.destroys_connectDestroyed, beq_eq_false_iff_ne.mpr (Ne.symm hne),
        Bool.false_eq_true, if_false, Function.update_of_ne hne]
      omega

/-- The server forgets a connection behind its close callback. -/
theorem Inv.removeConnection (h : Inv strict s) (hs : s.removeConnection c = some s') :
    Inv strict s' := by
  unfold IoLoop.removeConnection at hs
  split at hs
  · rename_i hguard
    obtain ⟨halive, hlt⟩ := hguard
    obtain rfl := Option.some.inj hs
    have hsettled := h.core.settled c (.inr (.inl halive))
    have hdown : (s.conns c).state = .kDisconnected := by
      have hhistory : History (s.conns c).state (s.log c) := hsettled.history
      cases hstate : (s.conns c).state <;> simp_all [History]
    have hcloses : closes (s.log c) ≤ 1 := by
      have hhistory : History (s.conns c).state (s.log c) := hsettled.history
      rw [hdown] at hhistory
      exact hhistory.2.2
    have hmem : s.connections c = true := by
      rw [← Bool.not_eq_false]
      intro hgone
      have := h.core.counted halive c hgone
      omega
    refine h.hand (h.core.handed_of_mem hmem) (fun _ => hdown) fun _ d hgone => ?_
    by_cases hne : d = c
    · subst hne
      rw [Function.update_self]
      exact Nat.le_add_left 1 _
    · rw [Function.update_of_ne hne] at hgone
      rw [Function.update_of_ne hne]
      exact h.core.counted halive d hgone
  · contradiction

/-- The server's destructor reaches a connection of its map. -/
theorem Inv.destroy (h : Inv strict s) {inLoop : Bool}
    (horderly : inLoop = true → (s.conns c).state ≠ .kDisconnecting)
    (hspared : inLoop = true → strict → s.waits c = false) (hs : s.destroy c inLoop = some s') :
    Inv strict s' := by
  unfold IoLoop.destroy at hs
  split at hs
  case isFalse => contradiction
  rename_i hguard
  obtain ⟨hdead, hmem⟩ := hguard
  have halive : s.serverAlive = false := by simpa using hdead
  have hhanded := h.core.handed_of_mem hmem
  cases inLoop with
  | true =>
    simp only [if_true] at hs
    split at hs
    · rename_i hbegun
      have hgone : Inv strict
          ({ s with connections := Function.update s.connections c false } : IoLoop C) := by
        refine ⟨{ h.core with handed_le := fun d => ?_, counted := ?_ },
          fun d => ⟨(h.ready d).waiting, (h.ready d).leaving⟩⟩
        · have hle := h.core.handed_le d
          change s.handed d + (Function.update s.connections c false d).toNat ≤ 1
          by_cases hne : d = c
          · subst hne
            simp [hhanded]
          · rwa [Function.update_of_ne hne]
        · intro halive'
          have := halive.symm.trans halive'
          contradiction
      exact hgone.connectDestroyed hhanded (Function.update_self _ _ _) hbegun (horderly rfl)
        (fun _ => halive) (hspared rfl) hs
    · contradiction
  | false =>
    obtain rfl := Option.some.inj hs
    have hnot {p : Prop} (halive' : s.serverAlive = true) : p := by
      have := halive.symm.trans halive'
      contradiction
    exact h.hand hhanded hnot hnot

/-- Every orderly step keeps the invariant. -/
theorem Inv.step (h : Inv strict s) {l : IoLabel C} (horderly : s.Orderly l)
    (hspared : strict → s.Spared l) (hs : s.step l = some s') : Inv strict s' := by
  cases l with
  | establish c =>
    simp only [IoLoop.step] at hs
    split at hs
    · rename_i hnew
      obtain ⟨x, hx, rfl⟩ := exec_eq_some.mp hs
      obtain ⟨hkeeps, hopen⟩ := Io.connectEstablished_keeps (h.core.sound c) hnew hx
      exact h.put hkeeps.moves (fun hlive => hkeeps.settled (h.core.settled c hlive))
        fun _ _ => hopen
    · contradiction
  | poll batch => exact h.poll hs
  | event r => exact h.event hs
  | resume w => exact h.resume hs
  | doPendingFunctors => exact h.doPendingFunctors hs
  | functor w log => exact h.functor horderly hs
  | loopAgain => exact h.loopAgain hs
  | send c msg w log =>
    simp only [IoLoop.step] at hs
    split at hs
    · rename_i hfits
      obtain ⟨x, hx, hlives, rfl⟩ := execSend_eq_some.mp hs
      exact h.keepsOpen ((Io.send_keeps (h.core.sound c) hfits hx).2 hlives)
    · contradiction
  | shutdown c =>
    obtain rfl := Option.some.inj hs
    exact h.keepsOpen (Io.shutdown_keeps (h.core.sound c))
  | retrieve c len =>
    obtain rfl := Option.some.inj hs
    exact h.keepsOpen (Io.retrieve_keeps (h.core.sound c) len)
  | otherSend c msg =>
    simp only [IoLoop.step] at hs
    split at hs
    · rename_i hstate
      obtain rfl := Option.some.inj hs
      refine h.post (fun _ => rfl) fun d msg' heq => ?_
      obtain ⟨rfl, -⟩ := ConnFunctor.sendInLoop.inj heq
      simp [hstate]
    · contradiction
  | otherShutdown c =>
    simp only [IoLoop.step] at hs
    split at hs
    · rename_i hstate
      obtain rfl := Option.some.inj hs
      refine ⟨{ h.core with storing := fun d hd => ?_ },
        fun d => ⟨(h.ready d).waiting, (h.ready d).leaving⟩⟩
      rcases List.mem_append.mp hd with hd | hd
      · exact h.core.storing d hd
      · obtain rfl := List.mem_singleton.mp hd
        change (s.conns d).state ≠ .kConnecting
        simp [hstate]
    · contradiction
  | otherStore i => exact h.otherStore (fun _ => horderly) hs
  | otherOverwritten i => exact h.otherStore (by simp) hs
  | otherQueue i => exact h.otherQueue hs
  | removeConnection c => exact h.removeConnection hs
  | destroyServer =>
    simp only [IoLoop.step] at hs
    split at hs
    · obtain rfl := Option.some.inj hs
      have hlive {d : C} (hlive : strict ∨ false = true ∨ s.destroyed d = []) : s.live strict d :=
        hlive.imp_right fun hempty => .inr (hempty.resolve_left Bool.false_ne_true)
      exact ⟨{ h.core with
        settled := fun d hd => h.core.settled d (hlive hd)
        removed := by simp
        counted := by simp }, fun d => ⟨fun hwaits hd => (h.ready d).waiting hwaits (hlive hd),
          fun hleave => ⟨((h.ready d).leaving hleave).1, rfl⟩⟩⟩
    · contradiction
  | destroy c => exact h.destroy (fun _ => horderly) (fun _ => hspared) hs
  | destroyLater c => exact h.destroy (by simp) (by simp) hs

end IoLoop

/-- The loop before any connection is established meets the invariant. -/
theorem Fleet.start_inv {C : Type*} [DecidableEq C] (strict : Prop) (fleet : Fleet C) :
    IoLoop.Inv strict fleet.start := by
  refine ⟨⟨fun c d heq => fleet.distinct heq, fun c => ⟨Buffer.initial_inv, Buffer.initial_inv⟩,
    fun c _ => ⟨⟨Buffer.initial_inv, Buffer.initial_inv⟩, fleet.unknown c, ?_, ?_, fun _ => rfl,
      ⟨rfl, rfl, rfl⟩, List.Pairwise.nil⟩, List.nodup_nil, fun _ => rfl, ?_, ?_, ?_, fun c => ?_, ?_, ?_,
    ?_, fun _ => rfl⟩, fun c => ⟨?_, ?_⟩⟩
  all_goals simp [start, IoLoop.io, Opening.constructed, TcpConnection.isOpen, IoLoop.queued,
    IoLoop.handed, IoLoop.waits, IoLoop.leaving]

end CcMuduo
