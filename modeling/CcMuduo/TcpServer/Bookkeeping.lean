import CcMuduo.TcpServer.Loops

/-!
# The server's bookkeeping

What the server promises about its records, in every state of every run: connections have different
names, the map holds the connections that were inserted and not removed, and `connectEstablished` begins
once, before everything else of the connection, and returns before `connectDestroyed` begins. The records
hold because a poller knows a channel only when its connection is established there.
-/

namespace CcMuduo

open Foundation

namespace ServerSystem

variable {L : Type*}

/-- Descriptors tell connections apart; a connection is new until `connectEstablished` begins, and no
poller knows its channel; and then only the one of its own loop does. -/
structure Wired (s : ServerSystem L) : Prop where
  distinct : ∀ c d, (s.conns c).channel.fd = (s.conns d).channel.fd → c = d
  sound : ∀ c, (s.io c).Sound
  state : ∀ c, (s.conns c).state = .kConnecting ↔ ¬ s.begun c
  registered : ∀ l c, (s.poller l).interest (s.conns c).channel.fd ≠ none ∨
    (s.poller l).channels (s.conns c).channel.fd ≠ none → s.home c = l ∧ s.begun c

/-- What every step keeps. -/
structure Booked (s : ServerSystem L) : Prop where
  records : s.Records
  wired : s.Wired

variable {s t s' : ServerSystem L} {c : ℕ} {l : L} {x : Io}

/-- The buffers are those of the connection. -/
theorem io_sound {conn : TcpConnection} (heq : s.conns c = conn) (houtput : conn.outputBuffer.Inv)
    (hinput : conn.inputBuffer.Inv) : (s.io c).Sound := by
  subst heq
  exact ⟨houtput, hinput⟩

/-- What does not touch connections and pollers keeps them wired. -/
theorem Wired.of_same (h : s.Wired) (hconns : t.conns = s.conns) (hpoller : t.poller = s.poller)
    (hhome : t.home = s.home) (hbegun : ∀ c, t.begun c ↔ s.begun c) : t.Wired := by
  refine ⟨?_, fun c => io_sound (congrFun hconns c) (h.sound c).output (h.sound c).input, fun c => ?_,
    fun l c hset => ?_⟩
  · rw [hconns]
    exact h.distinct
  · rw [hconns, hbegun]
    exact h.state c
  · rw [hconns, hpoller] at hset
    rw [hhome, hbegun]
    exact h.registered l c hset

/-- Recording an event other than the beginning of `connectEstablished` begins nothing. -/
theorem begun_note {e : LifeEvent} (he : e ≠ .establishing) (d : ℕ) :
    (s.note c e).begun d ↔ s.begun d := by
  unfold begun
  rw [mem_note]
  exact or_iff_left fun hd => he hd.2.symm

/-- A connection that has begun is not new. -/
theorem Wired.ne_kConnecting (h : s.Wired) (hbegun : s.begun c) : (s.conns c).state ≠ .kConnecting :=
  fun hstate => (h.state c).mp hstate hbegun

/-- The entry of a new connection leaves the others wired. -/
theorem Wired.insert (h : s.Wired) {ioLoop : L} {connName : List Char} {server : TcpServer L}
    (hempty : s.life c = []) : (s.insert ioLoop connName c server).Wired := by
  have hbegun (d : ℕ) : (s.insert ioLoop connName c server).begun d ↔ s.begun d :=
    begun_note (by decide) d
  refine ⟨h.distinct, fun d => ⟨(h.sound d).output, (h.sound d).input⟩,
    fun d => (h.state d).trans (not_congr (hbegun d).symm), fun l d hset => ?_⟩
  obtain ⟨hhome, hd⟩ := h.registered l d hset
  have hne : d ≠ c := by
    rintro rfl
    rw [begun, hempty] at hd
    contradiction
  exact ⟨(Function.update_of_ne hne _ _).trans hhome, (hbegun d).mpr hd⟩

/-- The store of another thread leaves a connection that has begun wired. -/
theorem Wired.store (h : s.Wired) (hbegun : s.begun c) {conn : TcpConnection} {storing : List ℕ}
    {posting : List ServerFunctor}
    (hconn : conn = s.conns c ∨ conn = { s.conns c with state := .kDisconnecting }) :
    ({ s with
      conns := Function.update s.conns c conn
      storing := storing
      posting := posting } : ServerSystem L).Wired := by
  set t : ServerSystem L := { s with
    conns := Function.update s.conns c conn
    storing := storing
    posting := posting }
  have hsame (d : ℕ) : t.conns d = s.conns d ∨
      d = c ∧ t.conns d = { s.conns d with state := .kDisconnecting } := by
    by_cases hd : d = c
    · subst hd
      rw [show t.conns d = conn from Function.update_self _ _ _]
      exact hconn.imp_right fun hstored => ⟨rfl, hstored⟩
    · exact .inl (Function.update_of_ne hd _ _)
  have hfd (d : ℕ) : (t.conns d).channel.fd = (s.conns d).channel.fd := by
    rcases hsame d with hd | ⟨-, hd⟩ <;> rw [hd]
  refine ⟨fun d d' heq => h.distinct d d' ?_, fun d => ?_, fun d => ?_, fun l d hset => ?_⟩
  · rwa [hfd, hfd] at heq
  · rcases hsame d with hd | ⟨-, hd⟩ <;> exact io_sound hd (h.sound d).output (h.sound d).input
  · rcases hsame d with hd | ⟨rfl, hd⟩
    · rw [hd]
      exact h.state d
    · rw [hd]
      exact iff_of_false (fun hstate => nomatch hstate) (not_not.mpr hbegun)
  · rw [hfd] at hset
    exact h.registered l d hset

/-- The entry of a new connection. -/
theorem Booked.insert (h : s.Booked) {ioLoop : L} {connName : List Char} {server : TcpServer L}
    (hid : s.server.nextConnId < 2 ^ 31)
    (hnew : s.server.newConnection = some (ioLoop, connName, c, server)) :
    (s.insert ioLoop connName c server).Booked ∧ .inserted ∈ (s.insert ioLoop connName c server).life c ∧
      ¬ (s.insert ioLoop connName c server).begun c ∧
      ∀ l, ∀ f ∈ (s.insert ioLoop connName c server).queued l, f.target ≠ c := by
  obtain ⟨-, -, hc, -⟩ := TcpServer.newConnection_spec hnew
  have hempty : s.life c = [] := h.records.fresh c hc.ge
  have hself : (s.insert ioLoop connName c server).life c = [.inserted] :=
    (Function.update_self _ _ _).trans (by rw [hempty]; rfl)
  refine ⟨⟨h.records.insert hid hnew, h.wired.insert hempty⟩, ?_, ?_, fun l f hf htarget => ?_⟩
  · rw [hself]
    exact List.mem_cons_self
  · rw [begun, hself]
    decide
  · have hwaiting := (h.records.waiting l f hf).2.1
    rw [htarget, hempty] at hwaiting
    contradiction

variable [DecidableEq L]

/-- A function of a connection that has begun keeps the pollers wired. -/
theorem Wired.put (h : s.Wired) (hconns : t.conns = s.conns) (hpoller : t.poller = s.poller)
    (hhome : t.home = s.home) (hbegun : ∀ d, t.begun d ↔ s.begun d ∨ d = c)
    (hmoves : Io.Moves (s.io c) x) (hstate : x.conn.state ≠ .kConnecting) : (t.put c x).Wired := by
  have hself : (t.put c x).conns c = x.conn := Function.update_self _ _ _
  have hother {d : ℕ} (hd : d ≠ c) : (t.put c x).conns d = s.conns d :=
    (Function.update_of_ne hd _ _).trans (congrFun hconns d)
  have hfd (d : ℕ) : ((t.put c x).conns d).channel.fd = (s.conns d).channel.fd := by
    by_cases hd : d = c
    · subst hd
      rw [hself]
      exact hmoves.fd
    · rw [hother hd]
  refine ⟨fun d d' heq => h.distinct d d' ?_, fun d => ?_, fun d => ?_, fun l d hset => ?_⟩
  · rwa [hfd, hfd] at heq
  · by_cases hd : d = c
    · subst hd
      exact io_sound hself hmoves.sound.output hmoves.sound.input
    · exact io_sound (hother hd) (h.sound d).output (h.sound d).input
  · change _ ↔ ¬ t.begun d
    by_cases hd : d = c
    · subst hd
      rw [hself]
      exact iff_of_false hstate (not_not.mpr ((hbegun d).mpr (.inr rfl)))
    · rw [hother hd, h.state]
      exact not_congr ((hbegun d).trans (or_iff_left hd)).symm
  · rw [hfd] at hset
    change t.home d = l ∧ t.begun d
    by_cases hd : d = c ∧ l = s.home c
    · obtain ⟨rfl, rfl⟩ := hd
      exact ⟨congrFun hhome d, (hbegun d).mpr (.inr rfl)⟩
    · have hsame : ((t.put c x).poller l).channels (s.conns d).channel.fd =
            (s.poller l).channels (s.conns d).channel.fd ∧
          ((t.put c x).poller l).interest (s.conns d).channel.fd =
            (s.poller l).interest (s.conns d).channel.fd := by
        by_cases hl : l = t.home c
        · subst hl
          have hne : d ≠ c := fun hdc => hd ⟨hdc, congrFun hhome c⟩
          rw [show (t.put c x).poller (t.home c) = x.poller from Function.update_self _ _ _, hhome]
          exact hmoves.frame _ fun heq => hne (h.distinct d c heq)
        · rw [show (t.put c x).poller l = t.poller l from Function.update_of_ne hl _ _, hpoller]
          exact ⟨rfl, rfl⟩
      rw [hsame.1, hsame.2] at hset
      obtain ⟨hl, hd⟩ := h.registered l d hset
      exact ⟨(congrFun hhome d).trans hl, (hbegun d).mpr (.inl hd)⟩

/-- What a function of a connection starts leaves the pollers alone. -/
theorem Wired.perform (h : (t.put c x).Wired) : (t.perform c x).Wired :=
  starts_induction _ (fun _ hs => hs.of_same rfl rfl rfl fun _ => Iff.rfl)
    (fun _ hs => hs.of_same rfl rfl rfl (begun_note (by decide)))
    (fun _ _ hs => hs.of_same rfl rfl rfl fun _ => Iff.rfl) h

/-- A function of a connection. -/
theorem Booked.perform (h : s.Booked) (ht : t.Records) (hconns : t.conns = s.conns)
    (hpoller : t.poller = s.poller) (hhome : t.home = s.home)
    (hbegun : ∀ d, t.begun d ↔ s.begun d ∨ d = c) (hmoves : Io.Moves (s.io c) x)
    (hstate : x.conn.state ≠ .kConnecting) : (t.perform c x).Booked :=
  ⟨ht.perform ((hbegun c).mpr (.inr rfl)) x,
    (h.wired.put hconns hpoller hhome hbegun hmoves hstate).perform⟩

/-- A function of a connection that has begun. -/
theorem Booked.performBegun (h : s.Booked) (hc : s.begun c) (ht : t.Records)
    (hconns : t.conns = s.conns) (hpoller : t.poller = s.poller) (hhome : t.home = s.home)
    (hbegun : ∀ d, t.begun d ↔ s.begun d) (hmoves : Io.Moves (s.io c) x) : (t.perform c x).Booked := by
  refine h.perform ht hconns hpoller hhome (fun d => ?_) hmoves (hmoves.begun (h.wired.ne_kConnecting hc))
  rw [hbegun, iff_self_or]
  rintro rfl
  exact hc

/-- A function without effects starts nothing. -/
theorem perform_eq_put (heffects : x.effects = s.log c) : s.perform c x = s.put c x := by
  rw [ServerSystem.perform, heffects, List.drop_length, List.foldl_nil]

/-- A connection that the base loop serves is established at once. -/
theorem Booked.acceptHere (h : s.Booked) {connName : List Char} {server : TcpServer L}
    (hid : s.server.nextConnId < 2 ^ 31)
    (hnew : s.server.newConnection = some (s.server.loop, connName, c, server))
    (hx : ((s.insert s.server.loop connName c server).io c).connectEstablished = .ok x) :
    ((((s.insert s.server.loop connName c server).push s.server.loop
      (.newConnection c)).establishing c).perform c x).Booked := by
  obtain ⟨hinsert, hinserted, hbegun, hqueued⟩ := h.insert hid hnew
  set t := s.insert s.server.loop connName c server
  have hhome : t.home c = s.server.loop := Function.update_self _ _ _
  have hbegins (d : ℕ) : (t.establishing c).begun d ↔ t.begun d ∨ d = c := by
    unfold begun
    exact mem_note.trans (or_congr_right (and_iff_left rfl))
  obtain ⟨hkeeps, hopen⟩ := Io.connectEstablished_keeps (hinsert.wired.sound c)
    ((hinsert.wired.state c).mpr hbegun) hx
  have hestablishing : (t.establishing c).Records :=
    hinsert.records.establishing hinserted hbegun fun l hf => hqueued l _ hf rfl
  -- `newConnection` is below `connectEstablished` on the stack
  have hpushed : ((t.push s.server.loop (.newConnection c)).establishing c).Records := by
    refine hestablishing.restack (fun l f hf => ?_) (fun d hd => .inl ?_) fun d hd => .inl ?_
    · rcases mem_push.mp hf with hf | ⟨hl, rfl⟩
      · rcases mem_push.mp hf with hf | ⟨rfl, rfl⟩
        · exact .inl (mem_push.mpr (.inl hf))
        · exact .inr ⟨hhome, (hbegins c).mpr (.inr rfl)⟩
      · exact .inl (mem_push.mpr (.inr ⟨hl, rfl⟩))
    all_goals
      exact mem_push.mpr ((mem_push.mp hd).imp_left fun hd => mem_push.mpr (.inl hd))
  exact hinsert.perform hpushed rfl rfl rfl hbegins hkeeps.moves (Io.ne_of_isOpen hopen).1

/-- `connectEstablished` from the queue. -/
theorem Booked.establish (h : s.Booked)
    (hhead : (s.functors l).head? = some (.connectEstablished c))
    (hx : (s.io c).connectEstablished = .ok x) :
    (((s.popFunctor l).establishing c).perform c x).Booked := by
  obtain ⟨-, hinserted, hbegins⟩ := h.records.waiting l _ (mem_queued_of_head hhead)
  have hbegun : ¬ s.begun c := fun hc => nomatch hbegins.mp hc
  obtain ⟨hkeeps, hopen⟩ := Io.connectEstablished_keeps (h.wired.sound c)
    ((h.wired.state c).mpr hbegun) hx
  have hpop := h.records.popFunctor hhead fun d hd => nomatch hd
  have hestablishing := hpop.establishing hinserted hbegun (h.records.not_queued hhead)
  refine h.perform hestablishing rfl rfl rfl (fun d => ?_) hkeeps.moves (Io.ne_of_isOpen hopen).1
  exact mem_note.trans (or_congr_right (and_iff_left rfl))

/-- The event of a connection. -/
theorem Booked.event (h : s.Booked) {revents : Mask} {r : ReadResult} {rest : List (ℕ × Mask)}
    (hactive : s.activeChannels l = (c, revents) :: rest)
    (hlegal : (ConnCall.handleRead r).legal (s.io c) = true)
    (hx : (s.io c).handleEventRead revents r = .ok x) :
    ((((s.popActive l).note c .handler).push l (.handleEvent c revents)).perform c x).Booked := by
  obtain ⟨hhome, hbegun⟩ := h.records.active l (c, revents) (hactive ▸ List.mem_cons_self)
  have hnote : ((s.popActive l).note c .handler).Records :=
    (h.records.popActive l).note (h.records.inserted_of_begun hbegun) (by decide) (fun _ => hbegun)
      (by simp)
  have hbegun' : ((s.popActive l).note c .handler).begun c := (begun_note (by decide) c).mpr hbegun
  exact h.performBegun hbegun (hnote.push hhome hbegun') rfl rfl rfl (begun_note (by decide))
    (Io.handleEventRead_keeps (h.wired.sound c) hlegal hx).1

/-- The end of `connectDestroyed`, when its records are in place. -/
theorem Booked.finishDestroy (h : s.Booked) (hbegun : s.begun c)
    (hx : (s.io c).onChannel Channel.remove = .ok x) (ht : t.Records)
    (hconns : t.conns = s.conns) (hpoller : t.poller = s.poller) (hhome : t.home = s.home)
    (hbegins : ∀ d, t.begun d ↔ s.begun d) : (t.put c x).Booked := by
  obtain ⟨hmoves, hstate, -⟩ := Io.remove_moves (h.wired.sound c) hx
  refine ⟨{ ht with }, h.wired.put hconns hpoller hhome (fun d => ?_) hmoves ?_⟩
  · rw [hbegins, iff_self_or]
    rintro rfl
    exact hbegun
  · rw [hstate]
    exact h.wired.ne_kConnecting hbegun

/-- `connectEstablished` returns. -/
theorem Booked.established (h : s.Booked) (hstack : (s.stack l).head? = some (.connectEstablished c)) :
    ((s.note c .established).popFrame l).Booked := by
  have hbegun := h.records.begun_of_frame hstack
  have hnote : (s.note c .established).Records :=
    h.records.note (h.records.inserted_of_begun hbegun) (by decide) (by simp) (by simp)
  have hpop : ((s.note c .established).popFrame l).Records := by
    refine hnote.popFrame hstack (fun d hd => ?_) fun d hd => (nomatch hd)
    obtain rfl := ServerFrame.connectEstablished.inj hd
    exact mem_note.mpr (.inr ⟨rfl, rfl⟩)
  exact ⟨hpop, h.wired.of_same rfl rfl rfl (begun_note (by decide))⟩

/-- `connectDestroyed` removes the channel behind its callback. -/
theorem Booked.destroyed (h : s.Booked) (hstack : (s.stack l).head? = some (.connectDestroyed c))
    (hx : (s.io c).onChannel Channel.remove = .ok x) :
    (((s.popFrame l).perform c x).note c .destroyed).Booked := by
  have hbegun := h.records.begun_of_frame hstack
  have hnote : (s.note c .destroyed).Records :=
    h.records.note (h.records.inserted_of_begun hbegun) (by decide) (by simp) (by simp)
  have hpop : ((s.note c .destroyed).popFrame l).Records := by
    refine hnote.popFrame hstack (fun d hd => (nomatch hd)) fun d hd => ?_
    obtain rfl := ServerFrame.connectDestroyed.inj hd
    exact mem_note.mpr (.inr ⟨rfl, rfl⟩)
  rw [perform_eq_put (s := s.popFrame l) (Io.remove_moves (h.wired.sound c) hx).2.2]
  exact h.finishDestroy hbegun hx hpop rfl rfl rfl (begun_note (by decide))

/-- `connectDestroyed` notifies a connection that is still connected. -/
theorem Booked.destroyNotify (h : s.Booked)
    (hfunctor : (s.functors l).head? = some (.connectDestroyed c))
    (hstate : (s.conns c).state = .kConnected) (hx : (s.io c).notifyDestroyed = .ok x) :
    ((((s.popFunctor l).note c .destroying).push (s.home c) (.connectDestroyed c)).perform c x).Booked := by
  have hbegun := h.records.begun_of_functor hfunctor rfl
  have hnote : (s.note c .destroying).Records :=
    h.records.note (h.records.inserted_of_begun hbegun) (by decide) (by simp)
      fun _ => h.records.established_of_functor hfunctor
  have hpush := hnote.push (f := .connectDestroyed c) (l := s.home c) rfl
    ((begun_note (by decide) c).mpr hbegun)
  have hpop : (((s.note c .destroying).push (s.home c) (.connectDestroyed c)).popFunctor l).Records := by
    refine hpush.popFunctor hfunctor fun d hd => .inr ?_
    obtain rfl := ServerFunctor.connectDestroyed.inj hd
    exact mem_push.mpr (.inr ⟨rfl, rfl⟩)
  exact h.performBegun hbegun hpop rfl rfl rfl (begun_note (by decide))
    (Io.notifyDestroyed_keeps (h.wired.sound c) hstate hx).1.moves

/-- `connectDestroyed` removes the channel of a connection that is down, and returns. -/
theorem Booked.destroy (h : s.Booked) (hfunctor : (s.functors l).head? = some (.connectDestroyed c))
    (hx : (s.io c).onChannel Channel.remove = .ok x) :
    ((((s.popFunctor l).note c .destroying).perform c x).note c .destroyed).Booked := by
  have hbegun := h.records.begun_of_functor hfunctor rfl
  have hinserted := h.records.inserted_of_begun hbegun
  have hnote : (s.note c .destroying).Records :=
    h.records.note hinserted (by decide) (by simp) fun _ => h.records.established_of_functor hfunctor
  have hdone : ((s.note c .destroying).note c .destroyed).Records :=
    hnote.note (mem_note.mpr (.inl hinserted)) (by decide) (by simp) (by simp)
  have hpop : (((s.note c .destroying).note c .destroyed).popFunctor l).Records := by
    refine hdone.popFunctor hfunctor fun d hd => .inl ?_
    obtain rfl := ServerFunctor.connectDestroyed.inj hd
    exact mem_note.mpr (.inr ⟨rfl, rfl⟩)
  rw [perform_eq_put (s := (s.popFunctor l).note c .destroying)
    (Io.remove_moves (h.wired.sound c) hx).2.2]
  exact h.finishDestroy hbegun hx hpop rfl rfl rfl fun d =>
    (begun_note (by decide) d).trans (begun_note (by decide) d)

/-- Every step keeps the books. -/
theorem Booked.step (h : s.Booked) {label : ServerLabel L} (hs : s.step label = some s') :
    s'.Booked := by
  have hrecords := h.records
  cases step_spec hs with
  | acceptHere _ hid hnew hx => exact h.acceptHere hid hnew hx
  | acceptAway hid hnew =>
    obtain ⟨hinsert, hinserted, hbegun, hqueued⟩ := h.insert hid hnew
    refine ⟨hinsert.records.queueInLoop (Function.update_self _ _ _) hinserted
      (iff_of_false hbegun (by simp [ServerFunctor.begins])) fun _ hf => hqueued _ _ hf rfl, ?_⟩
    exact hinsert.wired.of_same rfl rfl rfl fun _ => Iff.rfl
  | poll hphase _ _ hreports =>
    exact ⟨hrecords.poll hphase fun e he => h.wired.registered _ _ (.inl (hreports e he)),
      h.wired.of_same rfl rfl rfl fun _ => Iff.rfl⟩
  | event _ _ hactive hlegal hx => exact h.event hactive hlegal hx
  | returned hstack hf =>
    refine ⟨hrecords.popFrame hstack (fun c hc => ?_) fun c hc => ?_,
      h.wired.of_same rfl rfl rfl fun _ => Iff.rfl⟩
    all_goals
      subst hc
      rcases hf with hf | hf <;> contradiction
  | established hstack => exact h.established hstack
  | @eventWrite l w c revents x hstack hfits hx =>
    have hbegun := hrecords.begun_of_frame hstack
    have hpop := hrecords.popFrame hstack (fun d hd => nomatch hd) fun d hd => nomatch hd
    exact h.performBegun hbegun hpop rfl rfl rfl (fun _ => Iff.rfl)
      (Io.handleEventWrite_keeps (h.wired.sound c) hfits hx).moves
  | @closed l w c hstack =>
    have hbegun := hrecords.begun_of_frame hstack
    have hpop := hrecords.popFrame hstack (fun d hd => nomatch hd) fun d hd => nomatch hd
    refine ⟨hpop.removeConnection hbegun, ?_⟩
    unfold ServerSystem.removeConnection
    split
    · exact h.wired.of_same rfl rfl rfl (begun_note (by decide))
    · exact h.wired.of_same rfl rfl rfl fun _ => Iff.rfl
  | destroyed hstack hx => exact h.destroyed hstack hx
  | doPendingFunctors hphase _ hstack =>
    exact ⟨hrecords.doPendingFunctors hphase hstack, h.wired.of_same rfl rfl rfl fun _ => Iff.rfl⟩
  | establish _ _ hfunctor hx => exact h.establish hfunctor hx
  | @remove l msg w log c _ _ hfunctor =>
    have hbegun := hrecords.begun_of_functor hfunctor rfl
    have hpop := hrecords.popFunctor hfunctor fun d hd => nomatch hd
    exact ⟨hpop.removeConnectionInLoop hbegun, h.wired.of_same rfl rfl rfl (begun_note (by decide))⟩
  | destroyNotify _ _ hfunctor hstate hx => exact h.destroyNotify hfunctor hstate hx
  | destroy _ _ hfunctor _ hx => exact h.destroy hfunctor hx
  | @callback l msg w log c _ _ hfunctor =>
    have hbegun := hrecords.begun_of_functor hfunctor rfl
    have hpop := hrecords.popFunctor hfunctor fun d hd => nomatch hd
    have hnote : ((s.popFunctor l).note c .notification).Records :=
      hpop.note (hrecords.inserted_of_begun hbegun) (by decide) (fun _ => hbegun) (by simp)
    exact ⟨hnote.push rfl ((begun_note (by decide) c).mpr hbegun),
      h.wired.of_same rfl rfl rfl (begun_note (by decide))⟩
  | @sendInLoop l msg w log c x _ _ hfunctor hx =>
    have hbegun := hrecords.begun_of_functor hfunctor rfl
    have hpop := hrecords.popFunctor hfunctor fun d hd => nomatch hd
    obtain ⟨hlegal, hexec⟩ := callStep_eq_some.mp hx
    exact h.performBegun hbegun hpop rfl rfl rfl (fun _ => Iff.rfl)
      (Io.sendInLoop_keeps (h.wired.sound c) hlegal (h.wired.ne_kConnecting hbegun) hexec).1.moves
  | @shutdownInLoop l msg w log c _ _ hfunctor =>
    have hbegun := hrecords.begun_of_functor hfunctor rfl
    have hpop := hrecords.popFunctor hfunctor fun d hd => nomatch hd
    exact h.performBegun hbegun hpop rfl rfl rfl (fun _ => Iff.rfl)
      (Io.shutdownInLoop_keeps (h.wired.sound c)).moves
  | loopAgain _ hfunctors _ =>
    exact ⟨hrecords.loopAgain hfunctors, h.wired.of_same rfl rfl rfl fun _ => Iff.rfl⟩
  | @call c call x hreaches huser hx =>
    exact h.performBegun (hrecords.begun_of_reaches hreaches) hrecords rfl rfl rfl (fun _ => Iff.rfl)
      (Io.callStep_keeps (h.wired.sound c) huser hx).moves
  | take hreaches =>
    exact ⟨hrecords.take (hreaches.elim hrecords.begun_of_reaches (hrecords.pointing _)),
      h.wired.of_same rfl rfl rfl fun _ => Iff.rfl⟩
  | release _ hcall =>
    exact ⟨hrecords.release hcall, h.wired.of_same rfl rfl rfl fun _ => Iff.rfl⟩
  | otherSend hpointers _ =>
    exact ⟨hrecords.callingQueue s.conns hrecords.storing rfl hpointers,
      h.wired.of_same rfl rfl rfl fun _ => Iff.rfl⟩
  | @otherShutdown c hpointers _ =>
    refine ⟨hrecords.calling s.conns (fun d hd => ?_) fun f hf => .inl hf,
      h.wired.of_same rfl rfl rfl fun _ => Iff.rfl⟩
    exact (List.mem_append.mp hd).elim (hrecords.storing d) fun hd => List.mem_singleton.mp hd ▸ hpointers
  | @otherStore i c overwritten hi =>
    have hpointers := hrecords.storing c (List.mem_of_getElem? hi)
    refine ⟨hrecords.callingQueue _ (fun d hd => hrecords.storing d (List.mem_of_mem_eraseIdx hd)) rfl
      hpointers, h.wired.store (hrecords.pointing c hpointers) ?_⟩
    · cases overwritten with
      | true => exact .inl rfl
      | false => exact .inr rfl
  | otherQueue hi =>
    exact ⟨hrecords.otherQueue hi, h.wired.of_same rfl rfl rfl fun _ => Iff.rfl⟩

/-- What the server promises about its connections: different names; a map that holds exactly those which
were inserted and not removed, so that no erasure has taken another one out; and a `connectEstablished`
that begins once, in front of every handler and notification, and has returned when `connectDestroyed`
begins. -/
structure KeepsBooks (s : ServerSystem L) : Prop where
  names : ∀ c d, .inserted ∈ s.life c → .inserted ∈ s.life d → s.names c = s.names d → c = d
  map : ∀ n c, s.server.connections n = some c ↔
    s.names c = n ∧ .inserted ∈ s.life c ∧ .removed ∉ s.life c
  once : ∀ c, (s.life c).count .establishing ≤ 1
  first : ∀ c, Preceded .establishing (fun e => e = .handler ∨ e = .notification) (s.life c)
  returned : ∀ c, Preceded .established (· = .destroying) (s.life c)

omit [DecidableEq L] in
/-- The books are kept. -/
theorem Records.keepsBooks (h : s.Records) : s.KeepsBooks where
  names _ _ hc hd hname := h.names_injective hc hd hname
  map := h.map
  once := h.once
  first := h.announced
  returned := h.completed

end ServerSystem

/-- The books of a server without connections. -/
theorem Deployment.listening_booked {L : Type*} (d : Deployment L) : d.listening.Booked where
  records := {
    short := d.short
    baseloop := d.baseloop
    bound := d.first.le.trans (by decide)
    fresh _ _ := rfl
    inserted _ hc := absurd rfl hc
    named _ hc := nomatch hc
    homed _ hc := nomatch hc
    map n c := iff_of_false (fun hn => nomatch (d.empty n).symm.trans hn) fun hc => nomatch hc.2.1
    once _ := Nat.zero_le 1
    announced _ := .nil
    completed _ := .nil
    frames _ _ hf := nomatch hf
    waiting _ _ hf := nomatch hf
    single _ _ := Nat.zero_le 1
    ready _ _ hc := nomatch hc
    returning _ hc := nomatch hc
    active _ _ he := nomatch he
    pointing _ hc := nomatch hc
    storing _ hc := nomatch hc
    posting _ hf := nomatch hf
    emptied _ _ := ⟨rfl, rfl⟩
    leaving _ hc := nomatch hc }
  wired := {
    distinct := d.distinct
    sound _ := ⟨Buffer.initial_inv, Buffer.initial_inv⟩
    state _ := iff_of_true rfl fun hc => nomatch hc
    registered l c hset := absurd hset (by
      rw [not_or, not_not, not_not]
      exact (d.unknown l c).symm) }

/-- In every run of a server with its loops the books are kept. -/
theorem connections_booked {L : Type*} [DecidableEq L] (d : Deployment L)
    (labels : List (ServerLabel L)) :
    Everywhere ServerSystem.step ServerSystem.KeepsBooks d.listening labels :=
  everywhere_of_invariant (I := ServerSystem.Booked) (fun _ hs => hs.records.keepsBooks)
    (fun _ _ _ hs hstep => hs.step hstep) d.listening_booked labels

end CcMuduo
