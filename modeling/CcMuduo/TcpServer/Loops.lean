import CcMuduo.TcpServer.Records

/-!
# The loops keep the records

What the turns of a loop, the functions of a connection, and user code with its references and threads do
to the records.
-/

namespace CcMuduo

open Foundation

namespace ServerSystem

variable {L : Type*} {s s' : ServerSystem L} {c : ℕ} {l : L}

/-- A raw functor belongs to the loop of its connection and does not establish it. -/
theorem loopOf_of_raw {f : ServerFunctor} (hraw : f.raw = true) :
    s.loopOf f = s.home f.target ∧ f.begins = false := by
  cases f with
  | sendInLoop | shutdownInLoop => exact ⟨rfl, rfl⟩
  | connectEstablished | removeConnectionInLoop | connectDestroyed | callback => contradiction

/-- User code that reaches a connection has it established. -/
theorem Records.begun_of_reaches (h : s.Records) (hreaches : s.reaches c = true) : s.begun c := by
  obtain ⟨-, hreaches⟩ := Bool.and_eq_true_iff.mp hreaches
  rcases Bool.or_eq_true_iff.mp hreaches with hframe | hpointers
  · obtain ⟨f, hf, htarget⟩ := List.any_eq_true.mp hframe
    exact eq_of_beq htarget ▸ (h.frames _ f hf).2
  · exact h.pointing c (of_decide_eq_true hpointers)

/-- Another reference of user code. -/
theorem Records.take (h : s.Records) (hbegun : s.begun c) :
    ({ s with pointers := Function.update s.pointers c (s.pointers c + 1) } : ServerSystem L).Records := by
  have hle (d : ℕ) (hd : 0 < s.pointers d) :
      0 < Function.update s.pointers c (s.pointers c + 1) d := by
    by_cases hdc : d = c
    · subst hdc
      rw [Function.update_self]
      exact Nat.succ_pos _
    · rwa [Function.update_of_ne hdc]
  refine { h with
    pointing := fun d hd => ?_
    storing := fun d hd => hle d (h.storing d hd)
    posting := fun f hf => ⟨(h.posting f hf).1, hle _ (h.posting f hf).2⟩ }
  by_cases hdc : d = c
  · exact hdc ▸ hbegun
  · have hd : 0 < Function.update s.pointers c (s.pointers c + 1) d := hd
    rw [Function.update_of_ne hdc] at hd
    exact h.pointing d hd

/-- A reference of user code less. Its calls have returned. -/
theorem Records.release (h : s.Records) (hcall : s.inCall c = true → 1 < s.pointers c) :
    ({ s with pointers := Function.update s.pointers c (s.pointers c - 1) } : ServerSystem L).Records := by
  have hkeep (d : ℕ) (hd : 0 < s.pointers d) (hin : d = c → s.inCall c = true) :
      0 < Function.update s.pointers c (s.pointers c - 1) d := by
    by_cases hdc : d = c
    · subst hdc
      rw [Function.update_self]
      have hmany := hcall (hin rfl)
      omega
    · rwa [Function.update_of_ne hdc]
  refine { h with
    pointing := fun d hd => h.pointing d ?_
    storing := fun d hd => hkeep d (h.storing d hd) ?_
    posting := fun f hf => ⟨(h.posting f hf).1, hkeep _ (h.posting f hf).2 ?_⟩ }
  · have hd : 0 < Function.update s.pointers c (s.pointers c - 1) d := hd
    by_cases hdc : d = c
    · subst hdc
      rw [Function.update_self] at hd
      omega
    · rwa [Function.update_of_ne hdc] at hd
  · rintro rfl
    exact Bool.or_eq_true_iff.mpr (.inl (List.any_eq_true.mpr ⟨d, hd, beq_self_eq_true d⟩))
  · rintro rfl
    exact Bool.or_eq_true_iff.mpr (.inr (List.any_eq_true.mpr ⟨f, hf, beq_self_eq_true _⟩))

/-- A call on another thread that goes on: the connection is one it has a reference to. -/
theorem Records.calling (h : s.Records) (conns : ℕ → TcpConnection) {storing : List ℕ}
    {posting : List ServerFunctor} (hstoring : ∀ c ∈ storing, 0 < s.pointers c)
    (hposting : ∀ f ∈ posting, f ∈ s.posting ∨ f.raw = true ∧ 0 < s.pointers f.target) :
    ({ s with conns := conns, storing := storing, posting := posting } : ServerSystem L).Records :=
  { h with storing := hstoring, posting := fun f hf => (hposting f hf).elim (h.posting f) id }

/-- A call on another thread comes to the queueing of its functor. -/
theorem Records.callingQueue (h : s.Records) (conns : ℕ → TcpConnection) {storing : List ℕ}
    {f : ServerFunctor} (hstoring : ∀ c ∈ storing, 0 < s.pointers c) (hraw : f.raw = true)
    (hpointers : 0 < s.pointers f.target) :
    ({ s with conns := conns, storing := storing, posting := s.posting ++ [f] } :
      ServerSystem L).Records := by
  refine h.calling conns hstoring fun g hg => ?_
  refine (List.mem_append.mp hg).imp_right fun hg => ?_
  obtain rfl := List.mem_singleton.mp hg
  exact ⟨hraw, hpointers⟩

/-- A function on a stack has begun its connection. -/
theorem Records.begun_of_frame (h : s.Records) {f : ServerFrame} (hstack : (s.stack l).head? = some f) :
    s.begun f.target :=
  (h.frames l f (List.mem_of_head? hstack)).2

/-- A `connectDestroyed` that is taken finds that `connectEstablished` has returned. -/
theorem Records.established_of_functor (h : s.Records)
    (hhead : (s.functors l).head? = some (.connectDestroyed c)) : .established ∈ s.life c :=
  h.ready l c (List.mem_of_head? hhead)

variable [DecidableEq L]

/-- The functor of another thread is queued. -/
theorem Records.otherQueue (h : s.Records) {i : ℕ} {f : ServerFunctor} (hi : s.posting[i]? = some f) :
    (({ s with posting := s.posting.eraseIdx i } : ServerSystem L).queueInLoop
      (s.home f.target) f).Records := by
  obtain ⟨hraw, hpointers⟩ := h.posting f (List.mem_of_getElem? hi)
  have hbegun := h.pointing _ hpointers
  obtain ⟨hloop, hbegins⟩ := loopOf_of_raw (s := s) hraw
  have hposting : ({ s with posting := s.posting.eraseIdx i } : ServerSystem L).Records :=
    h.calling s.conns h.storing fun f hf => .inl (List.mem_of_mem_eraseIdx hf)
  refine hposting.queueInLoop hloop (h.inserted_of_begun hbegun) (iff_of_true hbegun hbegins) fun hf => ?_
  rw [hbegins] at hf
  contradiction

/-- A poll finds channels of connections that are established, on their own loop. -/
theorem Records.poll (h : s.Records) {batch : List (ℕ × Mask)} (hphase : s.phase l = .polling)
    (hbatch : ∀ e ∈ batch, s.home e.1 = l ∧ s.begun e.1) :
    ({ s with
      phase := Function.update s.phase l .dispatching
      activeChannels := Function.update s.activeChannels l batch } : ServerSystem L).Records := by
  refine { h with active := fun l' e he => ?_, emptied := fun l' hl => ?_ }
  · by_cases hll : l' = l
    · subst hll
      exact hbatch e (Function.update_self l' batch s.activeChannels ▸ he)
    · exact h.active l' e (Function.update_of_ne hll batch s.activeChannels ▸ he)
  · by_cases hll : l' = l
    · subst hll
      exact h.emptied l' (by simp [hphase])
    · exact h.emptied l' (Function.update_of_ne hll LoopPhase.dispatching s.phase ▸ hl)

/-- An active channel is taken. -/
theorem Records.popActive (h : s.Records) (l : L) : (s.popActive l).Records := by
  refine { h with active := fun l' e he => h.active l' e ?_ }
  by_cases hll : l' = l
  · subst hll
    have he : e ∈ Function.update s.activeChannels l' (s.activeChannels l').tail l' := he
    rw [Function.update_self] at he
    exact List.mem_of_mem_tail he
  · exact Function.update_of_ne hll (s.activeChannels l).tail s.activeChannels ▸ he

/-- The vector is taken when nothing is on the stack, so every `connectEstablished` has returned. -/
theorem Records.doPendingFunctors (h : s.Records) (hphase : s.phase l = .dispatching)
    (hstack : s.stack l = []) :
    ({ s with
      phase := Function.update s.phase l .callingPendingFunctors
      functors := Function.update s.functors l (s.pendingFunctors l)
      pendingFunctors := Function.update s.pendingFunctors l [] } : ServerSystem L).Records := by
  set t : ServerSystem L := { s with
    phase := Function.update s.phase l .callingPendingFunctors
    functors := Function.update s.functors l (s.pendingFunctors l)
    pendingFunctors := Function.update s.pendingFunctors l [] }
  have hempty := h.emptied l (by simp [hphase])
  have hqueued (l' : L) : t.queued l' = s.queued l' := by
    by_cases hll : l' = l
    · subst hll
      simp [t, queued, hempty.1]
    · simp [t, queued, hll]
  refine { h with
    waiting := fun l' f hf => h.waiting l' f (hqueued l' ▸ hf)
    single := fun l' c => hqueued l' ▸ h.single l' c
    ready := fun l' c hc => ?_
    emptied := fun l' hl => ?_
    leaving := fun c hc => (hqueued (s.home c)).symm ▸ h.leaving c hc }
  · by_cases hll : l' = l
    · subst hll
      have hc : .connectDestroyed c ∈ s.pendingFunctors l' := by simpa [t] using hc
      obtain ⟨hhome, -, hbegun⟩ := h.waiting l' _ (List.mem_append_right _ hc)
      refine (h.returning c (hbegun.mpr rfl)).resolve_right fun hframe => ?_
      rw [show s.home c = l' from hhome, hstack] at hframe
      contradiction
    · exact h.ready l' c (Function.update_of_ne hll (s.pendingFunctors l) s.functors ▸ hc)
  · have hll : l' ≠ l := by
      rintro rfl
      exact hl (Function.update_self _ _ _)
    have hfunctors : t.functors l' = s.functors l' := Function.update_of_ne hll _ _
    rw [hfunctors]
    exact h.emptied l' (Function.update_of_ne hll LoopPhase.callingPendingFunctors s.phase ▸ hl)

/-- `doPendingFunctors` returns. -/
theorem Records.loopAgain (h : s.Records) (hfunctors : s.functors l = []) :
    ({ s with
      phase := Function.update s.phase l .polling
      called := Function.update s.called l [] } : ServerSystem L).Records := by
  refine { h with emptied := fun l' hl => ?_ }
  by_cases hll : l' = l
  · subst hll
    exact ⟨hfunctors, Function.update_self _ _ _⟩
  · obtain ⟨hrest, hcalled⟩ :=
      h.emptied l' (Function.update_of_ne hll LoopPhase.polling s.phase ▸ hl)
    exact ⟨hrest, (Function.update_of_ne hll _ _).trans hcalled⟩

/-- Taking a functor out of the vector leaves the ones behind it. -/
theorem queued_popFunctor {f : ServerFunctor} (hhead : (s.functors l).head? = some f) :
    s.queued l = f :: (s.popFunctor l).queued l := by
  obtain ⟨rest, hrest⟩ := List.head?_eq_some_iff.mp hhead
  simp [queued, popFunctor, hrest]

/-- The other loops keep theirs. -/
theorem queued_popFunctor_of_ne {l' : L} (hll : l' ≠ l) : (s.popFunctor l).queued l' = s.queued l' := by
  simp [queued, popFunctor, hll]

/-- What still waits has waited before. -/
theorem mem_queued_of_popFunctor {f g : ServerFunctor} {l' : L} (hhead : (s.functors l).head? = some f)
    (hg : g ∈ (s.popFunctor l).queued l') : g ∈ s.queued l' := by
  by_cases hll : l' = l
  · subst hll
    exact queued_popFunctor hhead ▸ List.mem_cons_of_mem f hg
  · exact queued_popFunctor_of_ne hll ▸ hg

/-- What has waited still waits, but for the functor that was taken. -/
theorem mem_queued_popFunctor {f g : ServerFunctor} {l' : L} (hhead : (s.functors l).head? = some f)
    (hg : g ∈ s.queued l') : g = f ∨ g ∈ (s.popFunctor l).queued l' := by
  by_cases hll : l' = l
  · subst hll
    rw [queued_popFunctor hhead] at hg
    exact List.mem_cons.mp hg
  · exact .inr ((queued_popFunctor_of_ne hll).symm ▸ hg)

/-- The functor that is taken waits. -/
theorem mem_queued_of_head {f : ServerFunctor} (hhead : (s.functors l).head? = some f) :
    f ∈ s.queued l := by
  rw [queued_popFunctor hhead]
  exact List.mem_cons_self

/-- The functor that is taken finds its connection begun, unless it is to begin it. -/
theorem Records.begun_of_functor (h : s.Records) {f : ServerFunctor}
    (hhead : (s.functors l).head? = some f) (hbegins : f.begins = false) : s.begun f.target :=
  (h.waiting l f (mem_queued_of_head hhead)).2.2.mpr hbegins

/-- A functor is taken out of the vector: a `connectDestroyed` when its connection has it on the stack or
behind it. -/
theorem Records.popFunctor (h : s.Records) {f : ServerFunctor} (hhead : (s.functors l).head? = some f)
    (hdestroyed : ∀ c, f = .connectDestroyed c →
      .destroyed ∈ s.life c ∨ .connectDestroyed c ∈ s.stack (s.home c)) : (s.popFunctor l).Records := by
  refine { h with
    waiting := fun l' g hg => h.waiting l' g (mem_queued_of_popFunctor hhead hg)
    single := fun l' c => ?_
    ready := fun l' c hc => h.ready l' c ?_
    emptied := fun l' hl => ?_
    leaving := fun c hc => ?_ }
  · by_cases hll : l' = l
    · subst hll
      refine le_trans ?_ (h.single l' c)
      rw [queued_popFunctor hhead]
      exact List.Sublist.count_le _ (List.sublist_cons_self _ _)
    · exact (queued_popFunctor_of_ne hll).symm ▸ h.single l' c
  · by_cases hll : l' = l
    · subst hll
      have hc : .connectDestroyed c ∈ Function.update s.functors l' (s.functors l').tail l' := hc
      rw [Function.update_self] at hc
      exact List.mem_of_mem_tail hc
    · exact Function.update_of_ne hll (s.functors l).tail s.functors ▸ hc
  · have hll : l' ≠ l := by
      rintro rfl
      rw [(h.emptied l' hl).1] at hhead
      contradiction
    obtain ⟨hrest, hcalled⟩ := h.emptied l' hl
    exact ⟨(Function.update_of_ne hll _ _).trans hrest, (Function.update_of_ne hll _ _).trans hcalled⟩
  · rcases h.leaving c hc with hdone | hqueued | hframe
    · exact .inl hdone
    · rcases mem_queued_popFunctor hhead hqueued with heq | hstill
      · exact (hdestroyed c heq.symm).imp_right .inr
      · exact .inr (.inl hstill)
    · exact .inr (.inr hframe)

/-- The functor that establishes a connection is the only one. -/
theorem Records.not_queued (h : s.Records)
    (hhead : (s.functors l).head? = some (.connectEstablished c)) (l' : L) :
    .connectEstablished c ∉ (s.popFunctor l).queued l' := by
  intro hmem
  have hwas := mem_queued_of_popFunctor hhead hmem
  obtain ⟨hl, -⟩ := h.waiting l _ (mem_queued_of_head hhead)
  obtain ⟨hl', -⟩ := h.waiting l' _ hwas
  obtain rfl : l' = l := hl'.symm.trans hl
  have hcount := h.single l' c
  rw [queued_popFunctor hhead, List.count_cons_self] at hcount
  have hpos := List.count_pos_iff.mpr hmem
  omega

/-- What the effects of a connection start keeps what every start keeps. -/
theorem starts_induction {P : ServerSystem L → Prop} (effects : List Effect)
    (hqueue : ∀ s, P s → P (s.queueInLoop (s.home c) (.callback c)))
    (hnote : ∀ s, P s → P (s.note c .notification))
    (hclose : .closeCallback ∈ effects → ∀ s, P s → P (s.push (s.home c) (.handleClose c)))
    (h : P s) : P (effects.foldl (start c) s) := by
  induction effects generalizing s with
  | nil => exact h
  | cons e rest ih =>
    refine ih (fun hmem => hclose (List.mem_cons_of_mem e hmem)) ?_
    cases e with
    | queueWriteComplete | queueHighWaterMark => exact hqueue s h
    | connectionCallback | messageCallback => exact hnote s h
    | closeCallback => exact hclose List.mem_cons_self s h
    | write | formatLiteral | shutdownWrite => exact h

/-- A function of a connection. -/
theorem Records.perform (h : s.Records) (hbegun : s.begun c) (x : Io) : (s.perform c x).Records := by
  have hput : (s.put c x).Records ∧ (s.put c x).begun c := ⟨{ h with }, hbegun⟩
  refine (starts_induction (P := fun t => t.Records ∧ t.begun c) _ (fun t ht => ?_) (fun t ht => ?_)
    (fun _ t ht => ?_) hput).1
  · exact ⟨ht.1.queueInLoop rfl (ht.1.inserted_of_begun ht.2) (iff_of_true ht.2 rfl)
      fun hf => (nomatch hf), ht.2⟩
  · exact ⟨ht.1.note (ht.1.inserted_of_begun ht.2) (by decide) (fun _ => ht.2) (by simp),
      mem_note.mpr (.inl ht.2)⟩
  · exact ⟨ht.1.push rfl ht.2, ht.2⟩

end ServerSystem

end CcMuduo
