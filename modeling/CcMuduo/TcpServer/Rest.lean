import CcMuduo.TcpConnection.Growth
import CcMuduo.TcpServer.Ownership

/-!
# The server at rest

When every loop is in its poll and no functor waits, nothing is under way between the loops. Then every
connection that was accepted has been established, and it is either one that has never called its close
callback, in the map, or one that is out of the map and through `connectDestroyed`, and that nobody but
user code refers to: no close is lost between the loops, and no connection leaks.
-/

namespace CcMuduo

open Foundation

namespace ServerSystem

variable {L : Type*}

/-- Every loop is in its poll, and no functor waits. -/
def atRest (s : ServerSystem L) : Prop :=
  ∀ l ∈ s.loops, s.phase l = .polling ∧ s.pendingFunctors l = []

/-- The connection is on its way out of the map, or out of it. -/
def departs (s : ServerSystem L) (c : ℕ) : Prop :=
  .handleClose c ∈ s.stack (s.home c) ∨ .removeConnectionInLoop c ∈ s.queued s.server.loop ∨
    .removed ∈ s.life c

/-- What is under way is on a stack or in a queue: a connection is established at once or waits for it,
the one that is just entering apart, and `connectDestroyed` comes behind the removal. A loop in its poll
runs nothing. -/
structure Attended (entering : ℕ → Prop) (s : ServerSystem L) : Prop where
  beginning : ∀ c, .inserted ∈ s.life c →
    entering c ∨ s.begun c ∨ .connectEstablished c ∈ s.queued (s.home c)
  destroying : ∀ l c, .connectDestroyed c ∈ s.queued l ∨ .connectDestroyed c ∈ s.stack l ∨
    .destroyed ∈ s.life c → .removed ∈ s.life c
  polling : ∀ l, s.phase l = .polling → s.stack l = []

/-- A connection departs when it has called its close callback, and only then. -/
structure Accounted (s : ServerSystem L) : Prop extends Attended (fun _ => False) s where
  departing : ∀ c, closed (s.log c) = true ↔ s.departs c

/-- How a connection is found at rest. -/
structure Rested (s : ServerSystem L) (c : ℕ) : Prop where
  established : .established ∈ s.life c
  mapped : s.server.connections (s.names c) = some c ↔ closed (s.log c) = false
  destroyed : .destroyed ∈ s.life c ↔ closed (s.log c) = true
  held : s.strong c = true ↔ closed (s.log c) = false ∨ 0 < s.pointers c

variable {s t s' : ServerSystem L} {c d : ℕ} {l : L} {x : Io} {entering : ℕ → Prop}

/-- A connection that is on its way to be established has entered. -/
theorem Attended.entered (h : Attended (· = c) s)
    (hc : s.begun c ∨ .connectEstablished c ∈ s.queued (s.home c)) : Attended (fun _ => False) s where
  beginning d hd := .inr ((h.beginning d hd).elim (fun hdc => hdc ▸ hc) id)
  destroying := h.destroying
  polling := h.polling

/-- An event of a life that neither enters nor leaves the records. -/
theorem Attended.note (h : Attended entering s) {e : LifeEvent} (he : e ≠ .inserted)
    (hdestroyed : e = .destroyed → .removed ∈ s.life c) : Attended entering (s.note c e) := by
  refine ⟨fun d hd => ?_, fun l d hd => mem_note.mpr (.inl ?_), h.polling⟩
  · have hd : .inserted ∈ s.life d := (mem_note.mp hd).resolve_right fun hd => he hd.2.symm
    exact (h.beginning d hd).imp_right fun hb => hb.imp_left fun hb => mem_note.mpr (.inl hb)
  · rcases hd with hd | hd | hd
    · exact h.destroying l d (.inl hd)
    · exact h.destroying l d (.inr (.inl hd))
    · rcases mem_note.mp hd with hd | ⟨hdc, hlast⟩
      · exact h.destroying l d (.inr (.inr hd))
      · exact hdc ▸ hdestroyed hlast.symm

/-- A recorded event other than the removal sets no connection on its way. -/
theorem departs_note {e : LifeEvent} (he : e ≠ .removed) : (s.note c e).departs d ↔ s.departs d := by
  unfold departs
  rw [mem_note, or_iff_left (a := LifeEvent.removed ∈ s.life d) fun hd => he hd.2.symm]
  rfl

/-- What touches neither lives nor logs, and leaves what waits where it is. -/
theorem Accounted.of_same (h : s.Accounted) (hlife : t.life = s.life) (hlog : t.log = s.log)
    (hhome : t.home = s.home) (hserver : t.server.loop = s.server.loop)
    (hqueued : ∀ l, t.queued l = s.queued l) (hstack : t.stack = s.stack)
    (hphase : ∀ l, t.phase l = .polling → s.phase l = .polling ∨ s.stack l = []) : t.Accounted := by
  refine ⟨⟨fun c hc => ?_, fun l c hc => ?_, fun l hl => ?_⟩, fun c => ?_⟩
  · rw [hlife] at hc
    rw [begun, hlife, hqueued, hhome]
    exact h.beginning c hc
  · rw [hqueued, hstack, hlife] at hc
    rw [hlife]
    exact h.destroying l c hc
  · rw [hstack]
    exact (hphase l hl).elim (h.polling l) id
  · rw [departs, hlog, hstack, hhome, hqueued, hserver, hlife]
    exact h.departing c

/-- The entry of a new connection. -/
theorem Attended.insert (h : Attended (fun _ => False) s) (ioLoop : L) (connName : List Char) (c : ℕ)
    (server : TcpServer L) : Attended (· = c) (s.insert ioLoop connName c server) := by
  set t := s.insert ioLoop connName c server
  have hlife {e : LifeEvent} {d : ℕ} (hd : e ∈ t.life d) (he : e ≠ .inserted) : e ∈ s.life d :=
    (mem_note.mp hd).resolve_right fun hd => he hd.2
  refine ⟨fun d hd => ?_, fun l d hd => mem_note.mpr (.inl ?_), h.polling⟩
  · by_cases hdc : d = c
    · exact .inl hdc
    · have hd : .inserted ∈ s.life d := (mem_note.mp hd).resolve_right fun hd => hdc hd.1
      rw [show t.home d = s.home d from Function.update_of_ne hdc _ _]
      exact .inr (((h.beginning d hd).resolve_left id).imp_left fun hb => mem_note.mpr (.inl hb))
  · exact h.destroying l d (hd.imp_right fun hd => hd.imp_right fun hd => hlife hd (by decide))

/-- The entry of a new connection sets none on its way. -/
theorem departs_insert (hrecords : s.Records) {ioLoop : L} {connName : List Char} {server : TcpServer L}
    (hnew : s.server.newConnection = some (ioLoop, connName, c, server)) :
    (s.insert ioLoop connName c server).departs d ↔ s.departs d := by
  obtain ⟨-, -, hc, pool, hserver, -⟩ := TcpServer.newConnection_spec hnew
  set t := s.insert ioLoop connName c server
  have hloop : t.server.loop = s.server.loop := by
    change server.loop = _
    rw [hserver]
  have hqueued : t.queued = s.queued := rfl
  by_cases hdc : d = c
  · subst hdc
    have hempty : s.life d = [] := hrecords.fresh d hc.ge
    have hframe (l : L) : .handleClose d ∉ s.stack l := fun hmem => by
      have hbegun := (hrecords.frames l _ hmem).2
      rw [begun, ServerFrame.target, hempty] at hbegun
      exact List.not_mem_nil hbegun
    have hwaits (l : L) : .removeConnectionInLoop d ∉ s.queued l := fun hmem => by
      have hinserted := (hrecords.waiting l _ hmem).2.1
      rw [ServerFunctor.target, hempty] at hinserted
      exact List.not_mem_nil hinserted
    have hlife : t.life d = [.inserted] := (Function.update_self _ _ _).trans (by rw [hempty]; rfl)
    have hstays : .removed ∉ s.life d := hempty ▸ List.not_mem_nil
    have hstays' : .removed ∉ t.life d := hlife ▸ by decide
    exact iff_of_false (not_or.mpr ⟨hframe _, not_or.mpr ⟨hwaits _, hstays'⟩⟩)
      (not_or.mpr ⟨hframe _, not_or.mpr ⟨hwaits _, hstays⟩⟩)
  · unfold departs
    rw [hqueued, hloop, show t.home d = s.home d from Function.update_of_ne hdc _ _,
      show t.life d = s.life d from Function.update_of_ne hdc _ _]
    rfl

variable [DecidableEq L]

/-- A function comes to user code on a loop that is not in its poll. -/
theorem Attended.push (h : Attended entering s) {f : ServerFrame} (hphase : s.phase l ≠ .polling)
    (hdestroy : ∀ c, .connectDestroyed c = f → .removed ∈ s.life c) : Attended entering (s.push l f) := by
  refine ⟨h.beginning, fun l' c hc => ?_, fun l' hl' => ?_⟩
  · rw [mem_push, or_assoc] at hc
    rcases hc with hc | hc | ⟨-, hc⟩ | hc
    · exact h.destroying l' c (.inl hc)
    · exact h.destroying l' c (.inr (.inl hc))
    · exact hdestroy c hc
    · exact h.destroying l' c (.inr (.inr hc))
  · have hne : l' ≠ l := by
      rintro rfl
      exact hphase hl'
    exact (Function.update_of_ne hne _ _).trans (h.polling l' hl')

/-- A functor is queued. -/
theorem Attended.queueInLoop (h : Attended entering s) {f : ServerFunctor}
    (hdestroy : ∀ c, .connectDestroyed c = f → .removed ∈ s.life c) :
    Attended entering (s.queueInLoop l f) := by
  refine ⟨fun c hc => ?_, fun l' c hc => ?_, h.polling⟩
  · exact (h.beginning c hc).imp_right fun hb => hb.imp_right fun hb => mem_queueInLoop.mpr (.inl hb)
  · rw [mem_queueInLoop, or_assoc] at hc
    rcases hc with hc | ⟨-, hc⟩ | hc
    · exact h.destroying l' c (.inl hc)
    · exact hdestroy c hc
    · exact h.destroying l' c (.inr hc)

/-- A function is left. -/
theorem Attended.popFrame (h : Attended entering s) (l : L) : Attended entering (s.popFrame l) := by
  refine ⟨h.beginning, fun l' c hc => ?_, fun l' hl' => ?_⟩
  · exact h.destroying l' c (hc.imp_right fun hc => hc.imp_left mem_of_mem_popFrame)
  · refine List.eq_nil_iff_forall_not_mem.mpr fun f hf => ?_
    have hmem := mem_of_mem_popFrame hf
    rw [h.polling l' hl'] at hmem
    exact List.not_mem_nil hmem

/-- A functor is taken out of the vector: one that establishes when it has done so. -/
theorem Attended.popFunctor (h : Attended entering s) {f : ServerFunctor}
    (hhead : (s.functors l).head? = some f) (hbegin : ∀ c, .connectEstablished c = f → s.begun c) :
    Attended entering (s.popFunctor l) := by
  refine ⟨fun c hc => ?_, fun l' c hc => ?_, h.polling⟩
  · refine (h.beginning c hc).imp_right fun hb => hb.elim .inl fun hb => ?_
    exact (mem_queued_popFunctor hhead hb).imp_left (hbegin c)
  · exact h.destroying l' c (hc.imp_left (mem_queued_of_popFunctor hhead))

/-- What the effects of a connection start. -/
theorem Attended.perform (h : Attended entering s) (hphase : s.phase (s.home c) ≠ .polling) :
    Attended entering (s.perform c x) := by
  have hput : Attended entering (s.put c x) ∧ (s.put c x).phase ((s.put c x).home c) ≠ .polling :=
    ⟨⟨h.beginning, h.destroying, h.polling⟩, hphase⟩
  refine (starts_induction (P := fun t => Attended entering t ∧ t.phase (t.home c) ≠ .polling) _
    (fun t ht => ?_) (fun t ht => ?_) (fun _ t ht => ?_) hput).1
  · exact ⟨ht.1.queueInLoop (fun d hd => nomatch hd), ht.2⟩
  · exact ⟨ht.1.note (by decide) (fun he => nomatch he), ht.2⟩
  · exact ⟨ht.1.push ht.2 (fun d hd => nomatch hd), ht.2⟩

/-- A function on a stack sets a connection on its way when it is its `handleClose`. -/
theorem departs_push {f : ServerFrame} :
    (s.push l f).departs d ↔ s.departs d ∨ s.home d = l ∧ .handleClose d = f := by
  unfold departs
  rw [mem_push, or_right_comm]
  rfl

/-- A functor in a queue sets a connection on its way when it is its removal. -/
theorem departs_queueInLoop {f : ServerFunctor} : (s.queueInLoop l f).departs d ↔
    s.departs d ∨ s.server.loop = l ∧ .removeConnectionInLoop d = f := by
  unfold departs
  rw [mem_queueInLoop, or_right_comm (b := _ ∧ _), ← or_assoc]
  rfl

/-- A function that is left is no loss, `handleClose` when the removal is on its way. -/
theorem departs_popFrame {f : ServerFrame} (hhead : (s.stack l).head? = some f)
    (hclose : .handleClose d = f → .removeConnectionInLoop d ∈ s.queued s.server.loop ∨
      .removed ∈ s.life d) : (s.popFrame l).departs d ↔ s.departs d := by
  refine ⟨fun hd => hd.imp_left mem_of_mem_popFrame, fun hd => ?_⟩
  rcases hd with hd | hd
  · exact (mem_popFrame_or_eq hhead hd).imp_right hclose
  · exact .inr hd

/-- A functor that is taken is no loss, a removal when it is on record. -/
theorem departs_popFunctor {f : ServerFunctor} (hhead : (s.functors l).head? = some f)
    (hremove : .removeConnectionInLoop d = f → .removed ∈ s.life d) :
    (s.popFunctor l).departs d ↔ s.departs d := by
  refine ⟨fun hd => hd.imp_right fun hd => hd.imp_left (mem_queued_of_popFunctor hhead), fun hd => ?_⟩
  rcases hd with hd | hd | hd
  · exact .inl hd
  · exact .inr ((mem_queued_popFunctor hhead hd).imp_left hremove).symm
  · exact .inr (.inr hd)

/-- An effect of a connection sets it on its way exactly when it is the close callback. -/
theorem departs_start (e : Effect) :
    (start c s e).departs d ↔ s.departs d ∨ d = c ∧ e = .closeCallback := by
  cases e with
  | queueWriteComplete | queueHighWaterMark =>
    rw [start, departs_queueInLoop]
    simp
  | connectionCallback | messageCallback =>
    rw [start, departs_note (by decide)]
    simp
  | closeCallback =>
    rw [start, departs_push, ServerFrame.handleClose.injEq]
    refine or_congr_right ⟨fun hd => ⟨hd.2, rfl⟩, ?_⟩
    rintro ⟨rfl, -⟩
    exact ⟨rfl, rfl⟩
  | write | formatLiteral | shutdownWrite => simp [start]

/-- What the effects of a connection start sets it on its way exactly when it is closed. -/
theorem departs_starts (effects : List Effect) :
    (effects.foldl (start c) s).departs d ↔ s.departs d ∨ d = c ∧ closed effects = true := by
  induction effects generalizing s with
  | nil => simp [closed]
  | cons e rest ih =>
    have hcons : closed (e :: rest) = true ↔ e = .closeCallback ∨ closed rest = true := by
      rw [closed, List.contains_cons, Bool.or_eq_true_iff, beq_iff_eq, eq_comm]
      rfl
    rw [List.foldl_cons, ih, departs_start, hcons, and_or_left, or_assoc]

/-- What the effects of a connection start is not on record as an effect. -/
theorem log_starts (effects : List Effect) : (effects.foldl (start c) s).log = s.log :=
  starts_induction (P := fun t => t.log = s.log) effects (fun _ => id) (fun _ => id) (fun _ _ => id) rfl

/-- A function of a connection on a loop that is not in its poll. -/
theorem Accounted.perform (h : s.Accounted) (hgrows : s.log c <+: x.effects)
    (hphase : s.phase (s.home c) ≠ .polling) : (s.perform c x).Accounted := by
  refine ⟨h.toAttended.perform hphase, fun d => ?_⟩
  obtain ⟨new, hnew⟩ := hgrows
  have hdrop : x.effects.drop (s.log c).length = new := by rw [← hnew, List.drop_left]
  have hput : (s.put c x).departs d ↔ s.departs d := Iff.rfl
  rw [ServerSystem.perform, hdrop, departs_starts, hput, ← h.departing, log_starts]
  by_cases hdc : d = c
  · subst hdc
    rw [show (s.put d x).log d = x.effects from Function.update_self _ _ _, ← hnew]
    simp
  · rw [show (s.put c x).log d = s.log d from Function.update_of_ne hdc _ _]
    simp [hdc]

omit [DecidableEq L] in
/-- An event of a life that neither enters nor leaves the records. -/
theorem Accounted.note (h : s.Accounted) {e : LifeEvent} (he : e ≠ .inserted) (hremoved : e ≠ .removed)
    (hdestroyed : e = .destroyed → .removed ∈ s.life c) : (s.note c e).Accounted :=
  ⟨h.toAttended.note he hdestroyed, fun d => (h.departing d).trans (departs_note hremoved).symm⟩

/-- A function other than `handleClose` comes to user code. -/
theorem Accounted.push (h : s.Accounted) {f : ServerFrame} (hphase : s.phase l ≠ .polling)
    (hclose : ∀ c, .handleClose c ≠ f) (hdestroy : ∀ c, .connectDestroyed c = f → .removed ∈ s.life c) :
    (s.push l f).Accounted :=
  ⟨h.toAttended.push hphase hdestroy, fun d =>
    (h.departing d).trans (departs_push.trans (or_iff_left fun hd => hclose d hd.2)).symm⟩

/-- `connectEstablished` begins. -/
theorem Accounted.establishing (h : s.Accounted) (hphase : s.phase (s.home c) ≠ .polling) :
    (s.establishing c).Accounted :=
  (h.note (e := .establishing) (by decide) (by decide) (fun he => nomatch he)).push hphase
    (fun d hd => nomatch hd) (fun d hd => nomatch hd)

/-- A functor is queued, a removal when its connection is on its way. -/
theorem Accounted.queueInLoop (h : s.Accounted) {f : ServerFunctor}
    (hremove : ∀ c, .removeConnectionInLoop c = f → s.departs c)
    (hdestroy : ∀ c, .connectDestroyed c = f → .removed ∈ s.life c) : (s.queueInLoop l f).Accounted :=
  ⟨h.toAttended.queueInLoop hdestroy, fun d => (h.departing d).trans
    (departs_queueInLoop.trans (or_iff_left_of_imp fun hd => hremove d hd.2)).symm⟩

/-- A function is left, `handleClose` when the removal is on its way. -/
theorem Accounted.popFrame (h : s.Accounted) {f : ServerFrame} (hhead : (s.stack l).head? = some f)
    (hclose : ∀ c, .handleClose c = f →
      .removeConnectionInLoop c ∈ s.queued s.server.loop ∨ .removed ∈ s.life c) :
    (s.popFrame l).Accounted :=
  ⟨h.toAttended.popFrame l, fun d => (h.departing d).trans (departs_popFrame hhead (hclose d)).symm⟩

/-- A functor is taken, a removal when it is on record. -/
theorem Accounted.popFunctor (h : s.Accounted) {f : ServerFunctor}
    (hhead : (s.functors l).head? = some f) (hbegin : ∀ c, .connectEstablished c = f → s.begun c)
    (hremove : ∀ c, .removeConnectionInLoop c = f → .removed ∈ s.life c) : (s.popFunctor l).Accounted :=
  ⟨h.toAttended.popFunctor hhead hbegin, fun d =>
    (h.departing d).trans (departs_popFunctor hhead (hremove d)).symm⟩

/-- A functor that neither establishes nor removes is taken. -/
theorem Accounted.popOther (h : s.Accounted) {f : ServerFunctor}
    (hhead : (s.functors l).head? = some f) (hbegin : ∀ c, .connectEstablished c ≠ f)
    (hremove : ∀ c, .removeConnectionInLoop c ≠ f) : (s.popFunctor l).Accounted :=
  h.popFunctor hhead (fun c hc => absurd hc (hbegin c)) fun c hc => absurd hc (hremove c)

/-- `removeConnectionInLoop` of a connection that is on its way. -/
theorem Accounted.removeConnectionInLoop (h : s.Accounted) (hc : s.departs c) :
    (s.removeConnectionInLoop c).Accounted := by
  set t : ServerSystem L := { s with server := s.server.erase (s.names c) }
  have hattended : Attended (fun _ => False) t := ⟨h.beginning, h.destroying, h.polling⟩
  have hdeparting (d : ℕ) : closed (s.log d) = true ↔ (t.note c .removed).departs d := by
    refine (h.departing d).trans ⟨fun hd => ?_, fun hd => ?_⟩
    · exact hd.imp_right fun hd => hd.imp_right fun hd => mem_note.mpr (.inl hd)
    · rcases hd with hd | hd | hd
      · exact .inl hd
      · exact .inr (.inl hd)
      · rcases mem_note.mp hd with hd | ⟨rfl, -⟩
        · exact .inr (.inr hd)
        · exact hc
  have hnote : (t.note c .removed).Accounted :=
    ⟨hattended.note (e := .removed) (by decide) (fun he => nomatch he), hdeparting⟩
  refine hnote.queueInLoop (fun d hd => nomatch hd) fun d hd => ?_
  obtain rfl := ServerFunctor.connectDestroyed.inj hd
  exact mem_note.mpr (.inr ⟨rfl, rfl⟩)

/-- `removeConnection` of a connection that is on its way, which is then behind its `handleClose`. -/
theorem Accounted.removeConnection (h : s.Accounted) (hc : s.departs c) :
    (s.removeConnection c).Accounted ∧
      (.removeConnectionInLoop c ∈ (s.removeConnection c).queued (s.removeConnection c).server.loop ∨
        .removed ∈ (s.removeConnection c).life c) := by
  unfold ServerSystem.removeConnection
  split
  · exact ⟨h.removeConnectionInLoop hc, .inr (mem_note.mpr (.inr ⟨rfl, rfl⟩))⟩
  · refine ⟨h.queueInLoop (fun d hd => ?_) (fun d hd => nomatch hd),
      .inl (mem_queueInLoop.mpr (.inr ⟨rfl, rfl⟩))⟩
    obtain rfl := ServerFunctor.removeConnectionInLoop.inj hd
    exact hc

/-- `handleClose` is left for `removeConnection`. -/
theorem Accounted.leaveClose (h : s.Accounted) (hrecords : s.Records)
    (hstack : (s.stack l).head? = some (.handleClose c)) :
    ((s.popFrame l).removeConnection c).Accounted := by
  have hmem := List.mem_of_head? hstack
  have hhome : s.home c = l := (hrecords.frames l _ hmem).1
  obtain ⟨hremove, hbehind⟩ := h.removeConnection (.inl (hhome ▸ hmem) : s.departs c)
  have hhead : ((s.removeConnection c).stack l).head? = some (.handleClose c) := by
    unfold ServerSystem.removeConnection
    split <;> exact hstack
  have hswap : (s.popFrame l).removeConnection c = (s.removeConnection c).popFrame l := by
    unfold ServerSystem.removeConnection
    by_cases hbase : s.home c = s.server.loop
    · rw [if_pos hbase, if_pos (show (s.popFrame l).home c = (s.popFrame l).server.loop from hbase)]
      rfl
    · rw [if_neg hbase, if_neg (show (s.popFrame l).home c ≠ (s.popFrame l).server.loop from hbase)]
      rfl
  rw [hswap]
  refine hremove.popFrame hhead fun d hd => ?_
  obtain rfl := ServerFrame.handleClose.inj hd
  exact hbehind

/-- The end of `connectDestroyed` of a connection that is removed. -/
theorem Accounted.finishDestroy (h : s.Accounted) (hremoved : .removed ∈ s.life c)
    (hsound : (s.io c).Sound) (hx : (s.io c).onChannel Channel.remove = .ok x)
    (hphase : s.phase (s.home c) ≠ .polling) : ((s.perform c x).note c .destroyed).Accounted := by
  have heffects : x.effects = s.log c := (Io.remove_moves hsound hx).2.2
  have hdone : ((s.note c .destroyed).perform c x).Accounted :=
    (h.note (e := .destroyed) (by decide) (by decide) fun _ => hremoved).perform
      (heffects ▸ List.prefix_rfl) hphase
  rw [perform_eq_put (s := s.note c .destroyed) heffects] at hdone
  rw [perform_eq_put heffects]
  exact hdone

/-- A connection that the base loop serves is established at once. -/
theorem Accounted.acceptHere (h : s.Accounted) (hrecords : s.Records) {connName : List Char}
    {server : TcpServer L} (hphase : s.phase s.server.loop = .dispatching)
    (hnew : s.server.newConnection = some (s.server.loop, connName, c, server))
    (hx : ((s.insert s.server.loop connName c server).io c).connectEstablished = .ok x) :
    ((((s.insert s.server.loop connName c server).push s.server.loop
      (.newConnection c)).establishing c).perform c x).Accounted := by
  set t := s.insert s.server.loop connName c server
  have hhome : t.home c = s.server.loop := Function.update_self _ _ _
  have hne : t.phase s.server.loop ≠ .polling := by
    change s.phase _ ≠ _
    simp [hphase]
  have hbegin : (t.note c .establishing).Accounted := by
    refine ⟨((h.toAttended.insert _ _ c _).note (e := .establishing) (by decide)
      (fun he => nomatch he)).entered (.inl (mem_note.mpr (.inr ⟨rfl, rfl⟩))), fun d => ?_⟩
    rw [departs_note (by decide), departs_insert hrecords hnew]
    exact h.departing d
  have hpush := hbegin.push (f := .newConnection c) hne (fun d hd => nomatch hd) (fun d hd => nomatch hd)
  have hestablishing := hpush.push (l := t.home c) (f := .connectEstablished c) (hhome.symm ▸ hne)
    (fun d hd => nomatch hd) (fun d hd => nomatch hd)
  exact hestablishing.perform ⟨_, (Io.connectEstablished_effects hx).symm⟩ (hhome.symm ▸ hne)

/-- `connectEstablished` from the queue. -/
theorem Accounted.establish (h : s.Accounted) (hphase : s.phase (s.home c) ≠ .polling)
    (hhead : (s.functors l).head? = some (.connectEstablished c))
    (hx : (s.io c).connectEstablished = .ok x) :
    (((s.popFunctor l).establishing c).perform c x).Accounted := by
  have hpop : ((s.establishing c).popFunctor l).Accounted := by
    refine (h.establishing hphase).popFunctor hhead (fun d hd => ?_) fun d hd => nomatch hd
    obtain rfl := ServerFunctor.connectEstablished.inj hd
    exact mem_note.mpr (.inr ⟨rfl, rfl⟩)
  exact hpop.perform ⟨_, (Io.connectEstablished_effects hx).symm⟩ hphase

omit [DecidableEq L] in
/-- A function on a stack keeps its loop out of the poll. -/
theorem Attended.phase_of_frame (h : Attended entering s) {f : ServerFrame}
    (hhead : (s.stack l).head? = some f) : s.phase l ≠ .polling := by
  intro hphase
  rw [h.polling l hphase] at hhead
  contradiction

/-- Every step keeps all connections accounted for. -/
theorem Accounted.step (h : s.Accounted) (hbooked : s.Booked) {label : ServerLabel L}
    (hs : s.step label = some s') : s'.Accounted := by
  have hrecords := hbooked.records
  have hsound := hbooked.wired.sound
  have hstep := hs
  cases step_spec hs with
  | acceptHere _ _ hnew hx =>
    obtain ⟨⟨hphase, -⟩, -⟩ := Option.ite_none_right_eq_some.mp hstep
    exact h.acceptHere hrecords hphase hnew hx
  | @acceptAway ioLoop connName c server _ hnew =>
    have hentry := (h.toAttended.insert ioLoop connName c server).queueInLoop (l := ioLoop)
      (f := .connectEstablished c) (by simp)
    have hhome : (s.insert ioLoop connName c server).home c = ioLoop := Function.update_self _ _ _
    refine ⟨hentry.entered (.inr (mem_queueInLoop.mpr (.inr ⟨hhome, rfl⟩))), fun d => ?_⟩
    rw [departs_queueInLoop, or_iff_left (by simp)]
    exact (h.departing d).trans (departs_insert hrecords hnew).symm
  | @poll l batch hphase hstack =>
    refine h.of_same rfl rfl rfl rfl (fun _ => rfl) rfl fun l' hl' => ?_
    by_cases hll : l' = l
    · exact .inr (hll ▸ hstack)
    · exact .inl ((Function.update_of_ne hll _ _).symm.trans hl')
  | @event l r c revents rest x hphase _ hactive hlegal hx =>
    have hhome : s.home c = l := (hrecords.active l (c, revents) (hactive ▸ List.mem_cons_self)).1
    have hne : s.phase l ≠ .polling := by simp [hphase]
    have hpop : (s.popActive l).Accounted := h.of_same rfl rfl rfl rfl (fun _ => rfl) rfl fun _ => .inl
    have hframe := (hpop.note (c := c) (e := .handler) (by decide) (by decide) (by simp)).push
      (f := .handleEvent c revents) hne (by simp) (by simp)
    obtain ⟨new, hnew, -⟩ := Io.handleEventRead_new (hsound c) hlegal hx
    exact hframe.perform ⟨new, hnew.symm⟩ (hhome.symm ▸ hne)
  | returned hstack hf =>
    refine h.popFrame hstack fun d hd => ?_
    subst hd
    rcases hf with hf | hf <;> contradiction
  | established hstack =>
    exact (h.popFrame hstack (by simp)).note (by decide) (by decide) (by simp)
  | @eventWrite l w c revents x hstack hfits hx =>
    have hhome : s.home c = l := (hrecords.frames l _ (List.mem_of_head? hstack)).1
    obtain ⟨new, hnew, -⟩ := Io.handleEventWrite_new (hsound c) hfits hx
    exact (h.popFrame hstack (by simp)).perform ⟨new, hnew.symm⟩
      (hhome.symm ▸ h.phase_of_frame hstack)
  | closed hstack => exact h.leaveClose hrecords hstack
  | @destroyed l w c x hstack hx =>
    have hmem := List.mem_of_head? hstack
    have hhome : s.home c = l := (hrecords.frames l _ hmem).1
    exact (h.popFrame hstack (by simp)).finishDestroy
      (h.destroying l c (.inr (.inl hmem))) (hsound c) hx (hhome.symm ▸ h.phase_of_frame hstack)
  | @doPendingFunctors l hphase _ hstack =>
    obtain ⟨hfunctors, -⟩ := hrecords.emptied l (by simp [hphase])
    refine h.of_same rfl rfl rfl rfl (fun l' => ?_) rfl fun l' hl' => ?_
    · by_cases hll : l' = l
      · subst hll
        simp [queued, hfunctors]
      · simp [queued, hll]
    · by_cases hll : l' = l
      · exact .inr (hll ▸ hstack)
      · exact .inl ((Function.update_of_ne hll _ _).symm.trans hl')
  | @establish l msg w log c x hphase _ hfunctor hx =>
    have hhome : s.home c = l := (hrecords.waiting l _ (mem_queued_of_head hfunctor)).1
    exact h.establish (by simp [hhome, hphase]) hfunctor hx
  | @remove l msg w log c _ _ hfunctor =>
    have hmem := mem_queued_of_head hfunctor
    have hloop : s.server.loop = l := (hrecords.waiting l _ hmem).1
    have hpop : ((s.removeConnectionInLoop c).popFunctor l).Accounted := by
      refine (h.removeConnectionInLoop (.inr (.inl (hloop.symm ▸ hmem)))).popFunctor hfunctor
        (by simp) fun d hd => ?_
      obtain rfl := ServerFunctor.removeConnectionInLoop.inj hd
      exact mem_note.mpr (.inr ⟨rfl, rfl⟩)
    exact hpop
  | @destroyNotify l msg w log c x hphase _ hfunctor hstate hx =>
    have hmem := mem_queued_of_head hfunctor
    have hhome : s.home c = l := (hrecords.waiting l _ hmem).1
    have hne : s.phase (s.home c) ≠ .polling := by simp [hhome, hphase]
    have hpop := h.popOther hfunctor (by simp) (by simp)
    have hnote := hpop.note (c := c) (e := .destroying) (by decide) (by decide) (by simp)
    have hpush := hnote.push (l := s.home c) (f := .connectDestroyed c) hne (by simp)
      fun d hd => by
        obtain rfl := ServerFrame.connectDestroyed.inj hd
        exact mem_note.mpr (.inl (h.destroying l d (.inl hmem)))
    exact hpush.perform ⟨_, (Io.notifyDestroyed_effects hstate hx).symm⟩ hne
  | @destroy l msg w log c x hphase _ hfunctor _ hx =>
    have hmem := mem_queued_of_head hfunctor
    have hhome : s.home c = l := (hrecords.waiting l _ hmem).1
    have hpop := h.popOther hfunctor (by simp) (by simp)
    exact (hpop.note (e := .destroying) (by decide) (by decide) (by simp)).finishDestroy
      (mem_note.mpr (.inl (h.destroying l c (.inl hmem)))) (hsound c) hx
      (show s.phase (s.home c) ≠ _ by simp [hhome, hphase])
  | @callback l msg w log c hphase _ hfunctor =>
    have hhome : s.home c = l := (hrecords.waiting l _ (mem_queued_of_head hfunctor)).1
    have hpop := h.popOther hfunctor (by simp) (by simp)
    exact (hpop.note (e := .notification) (by decide) (by decide) (by simp)).push
      (show s.phase (s.home c) ≠ _ by simp [hhome, hphase]) (by simp)
      (by simp)
  | @sendInLoop l msg w log c x hphase _ hfunctor hx =>
    have hhome : s.home c = l := (hrecords.waiting l _ (mem_queued_of_head hfunctor)).1
    exact (h.popOther hfunctor (by simp) (by simp)).perform
      (Io.callStep_grows (hsound c) hx) (show s.phase (s.home c) ≠ _ by simp [hhome, hphase])
  | @shutdownInLoop l msg w log c hphase _ hfunctor =>
    have hhome : s.home c = l := (hrecords.waiting l _ (mem_queued_of_head hfunctor)).1
    exact (h.popOther hfunctor (by simp) (by simp)).perform
      (Io.shutdownInLoop_grows (s.io c)) (show s.phase (s.home c) ≠ _ by simp [hhome, hphase])
  | @loopAgain l hphase hfunctors hstack =>
    refine h.of_same rfl rfl rfl rfl (fun _ => rfl) rfl fun l' hl' => ?_
    by_cases hll : l' = l
    · exact .inr (hll ▸ hstack)
    · exact .inl ((Function.update_of_ne hll _ _).symm.trans hl')
  | @call c call x hreaches _ hx =>
    obtain ⟨hphase, -⟩ := Bool.and_eq_true_iff.mp hreaches
    exact h.perform (Io.callStep_grows (hsound c) hx) (bne_iff_ne.mp hphase)
  | take | release | otherSend | otherShutdown | otherStore =>
    exact h.of_same rfl rfl rfl rfl (fun _ => rfl) rfl fun _ => .inl
  | @otherQueue i f hi =>
    obtain ⟨hraw, -⟩ := hrecords.posting f (List.mem_of_getElem? hi)
    have hposting : ({ s with posting := s.posting.eraseIdx i } : ServerSystem L).Accounted :=
      h.of_same rfl rfl rfl rfl (fun _ => rfl) rfl fun _ => .inl
    refine hposting.queueInLoop (fun d hd => ?_) fun d hd => ?_
    all_goals
      subst hd
      contradiction

omit [DecidableEq L] in
/-- At rest the loops refer to no connection. -/
theorem strong_iff_atRest (hempty : ∀ l ∈ s.loops, s.stack l = [] ∧ s.called l ++ s.queued l = []) :
    s.strong c = true ↔ s.server.connections (s.names c) = some c ∨ 0 < s.pointers c := by
  have hnone : (s.loops.any fun l =>
      (s.stack l).any (·.target == c) || (s.called l ++ s.queued l).any (·.holds c)) = false := by
    refine List.any_eq_false.mpr fun l hl => ?_
    obtain ⟨hstack, hqueued⟩ := hempty l hl
    simp [hstack, hqueued]
  rw [strong, hnone, Bool.or_false, Bool.or_eq_true_iff, beq_iff_eq, decide_eq_true_iff]

omit [DecidableEq L] in
/-- At rest nothing is under way, so every connection that was accepted is where it belongs. -/
theorem Accounted.rested (h : s.Accounted) (hrecords : s.Records) (hrest : s.atRest)
    (hc : .inserted ∈ s.life c) : s.Rested c := by
  have hempty (l : L) (hl : l ∈ s.loops) : s.stack l = [] ∧ s.called l = [] ∧ s.queued l = [] := by
    obtain ⟨hphase, hpending⟩ := hrest l hl
    obtain ⟨hfunctors, hcalled⟩ := hrecords.emptied l (by simp [hphase])
    exact ⟨h.polling l hphase, hcalled, by rw [queued, hfunctors, hpending, List.append_nil]⟩
  obtain ⟨hstack, -, hqueued⟩ := hempty _ (hrecords.homed c hc)
  obtain ⟨-, -, hbase⟩ := hempty s.server.loop List.mem_cons_self
  have hbegun : s.begun c := by
    refine ((h.beginning c hc).resolve_left id).resolve_right ?_
    rw [hqueued]
    exact List.not_mem_nil
  have hclosed : closed (s.log c) = true ↔ .removed ∈ s.life c := by
    rw [h.departing, departs, hstack, hbase]
    simp
  have hdestroyed : .destroyed ∈ s.life c ↔ .removed ∈ s.life c := by
    refine ⟨fun hd => h.destroying s.server.loop c (.inr (.inr hd)), fun hremoved => ?_⟩
    refine (hrecords.leaving c hremoved).resolve_right ?_
    simp [hstack, hqueued]
  have hmapped : s.server.connections (s.names c) = some c ↔ closed (s.log c) = false := by
    rw [hrecords.map, ← Bool.not_eq_true, hclosed]
    simp [hc]
  refine ⟨?_, hmapped, hdestroyed.trans hclosed.symm, ?_⟩
  · refine (hrecords.returning c hbegun).resolve_right ?_
    rw [hstack]
    exact List.not_mem_nil
  · rw [strong_iff_atRest, hmapped]
    intro l hl
    obtain ⟨hstack, hcalled, hqueued⟩ := hempty l hl
    exact ⟨hstack, by rw [hcalled, hqueued, List.append_nil]⟩

end ServerSystem

/-- A server without connections has all of them accounted for. -/
theorem Deployment.listening_accounted {L : Type*} (d : Deployment L) : d.listening.Accounted where
  beginning _ hc := nomatch hc
  destroying _ _ hc := by
    rcases hc with hc | hc | hc <;> contradiction
  polling _ _ := rfl
  departing _ := by
    refine iff_of_false Bool.false_ne_true ?_
    rintro (hc | hc | hc) <;> contradiction

/-- In every state of every run in which the server is at rest, every connection that was accepted has
been established, and it is in the map until it has called its close callback, and destroyed from then
on, with nobody left who refers to it but user code. -/
theorem server_atRest {L : Type*} [DecidableEq L] (d : Deployment L) (labels : List (ServerLabel L)) :
    Everywhere ServerSystem.step (fun s => s.atRest → ∀ c, .inserted ∈ s.life c → s.Rested c)
      d.listening labels := by
  refine everywhere_of_invariant (I := fun s => s.Booked ∧ s.Accounted) (fun s hs hrest c hc => ?_)
    (fun _ _ _ hs hstep => ⟨hs.1.step hstep, hs.2.step hs.1 hstep⟩)
    ⟨d.listening_booked, d.listening_accounted⟩ labels
  exact hs.2.rested hs.1.records hrest hc

end CcMuduo
