import CcMuduo.Foundation.Precedence
import CcMuduo.TcpServer.Step

/-!
# The records of the server and its loops

What holds of the map, the queues, the stacks and the histories in every state. Whatever mentions a
connection, except the functor that will establish it, finds that `connectEstablished` has begun; a
`connectDestroyed` waits in the queue of the connection's own loop, and when it gets into the vector
nothing is on the stack, so that `connectEstablished` has returned.
-/

namespace CcMuduo

open Foundation

/-- A connection gets one of the server's loops, the name of its number, and an entry in the map. -/
theorem TcpServer.newConnection_spec {L : Type*} {s server : TcpServer L} {ioLoop : L}
    {connName : List Char} {c : ℕ} (h : s.newConnection = some (ioLoop, connName, c, server)) :
    (ioLoop = s.threadPool.baseloop ∨ ioLoop ∈ s.threadPool.loops) ∧ connName = s.connName c ∧
      c = s.nextConnId ∧ ∃ pool, server = { s with
          threadPool := pool
          nextConnId := c + 1
          connections := Function.update s.connections connName (some c) } ∧
        pool.baseloop = s.threadPool.baseloop ∧ pool.loops = s.threadPool.loops := by
  obtain ⟨⟨loop, pool⟩, hnext, heq⟩ := Option.map_eq_some_iff.mp h
  simp only [Prod.mk.injEq] at heq
  obtain ⟨rfl, rfl, rfl, rfl⟩ := heq
  unfold EventLoopThreadPoll.getNextLoop at hnext
  split at hnext
  · obtain ⟨rfl, rfl⟩ := Prod.mk.inj (Option.some.inj hnext)
    exact ⟨.inl rfl, rfl, rfl, _, rfl, rfl, rfl⟩
  · obtain ⟨other, hother, heq⟩ := Option.map_eq_some_iff.mp hnext
    obtain ⟨rfl, rfl⟩ := Prod.mk.inj heq
    exact ⟨.inr (List.mem_of_getElem? hother), rfl, rfl, _, rfl, rfl, rfl⟩

/-- Does the functor establish its connection? -/
def ServerFunctor.begins : ServerFunctor → Bool
  | .connectEstablished _ => true
  | .removeConnectionInLoop _ | .connectDestroyed _ | .callback _ | .sendInLoop _
  | .shutdownInLoop _ => false

namespace ServerSystem

variable {L : Type*}

/-- `connectEstablished` has begun. -/
def begun (s : ServerSystem L) (c : ℕ) : Prop := .establishing ∈ s.life c

/-- The loop whose queue the functor belongs in. -/
def loopOf (s : ServerSystem L) : ServerFunctor → L
  | .removeConnectionInLoop _ => s.server.loop
  | f => s.home f.target

/-- The records of the server. -/
structure Records (s : ServerSystem L) : Prop where
  short : s.server.ipPort.length ≤ 15
  baseloop : s.server.threadPool.baseloop = s.server.loop
  bound : s.server.nextConnId ≤ 2 ^ 31
  fresh : ∀ c, s.server.nextConnId ≤ c → s.life c = []
  inserted : ∀ c, s.life c ≠ [] → .inserted ∈ s.life c
  named : ∀ c, .inserted ∈ s.life c → s.names c = s.server.connName c
  homed : ∀ c, .inserted ∈ s.life c → s.home c ∈ s.loops
  map : ∀ n c, s.server.connections n = some c ↔
    s.names c = n ∧ .inserted ∈ s.life c ∧ .removed ∉ s.life c
  once : ∀ c, (s.life c).count .establishing ≤ 1
  announced : ∀ c, Preceded .establishing (fun e => e = .handler ∨ e = .notification) (s.life c)
  completed : ∀ c, Preceded .established (· = .destroying) (s.life c)
  frames : ∀ l, ∀ f ∈ s.stack l, s.home f.target = l ∧ s.begun f.target
  waiting : ∀ l, ∀ f ∈ s.queued l,
    s.loopOf f = l ∧ .inserted ∈ s.life f.target ∧ (s.begun f.target ↔ f.begins = false)
  single : ∀ l c, (s.queued l).count (.connectEstablished c) ≤ 1
  ready : ∀ l c, .connectDestroyed c ∈ s.functors l → .established ∈ s.life c
  returning : ∀ c, s.begun c → .established ∈ s.life c ∨ .connectEstablished c ∈ s.stack (s.home c)
  active : ∀ l, ∀ e ∈ s.activeChannels l, s.home e.1 = l ∧ s.begun e.1
  pointing : ∀ c, 0 < s.pointers c → s.begun c
  storing : ∀ c ∈ s.storing, 0 < s.pointers c
  posting : ∀ f ∈ s.posting, f.raw = true ∧ 0 < s.pointers f.target
  emptied : ∀ l, s.phase l ≠ .callingPendingFunctors → s.functors l = [] ∧ s.called l = []
  leaving : ∀ c, .removed ∈ s.life c → .destroyed ∈ s.life c ∨
    .connectDestroyed c ∈ s.queued (s.home c) ∨ .connectDestroyed c ∈ s.stack (s.home c)

variable {s s' : ServerSystem L} {c : ℕ} {l : L} {e : LifeEvent}

/-- What a recorded event adds. -/
theorem mem_note {a : LifeEvent} {d : ℕ} :
    a ∈ (s.note c e).life d ↔ a ∈ s.life d ∨ d = c ∧ a = e := by
  unfold note
  by_cases hd : d = c
  · subst hd
    simp
  · simp [hd]

/-- What holds of the life with the recorded event, and of the other lives, holds of all of them. -/
theorem forall_life_note {P : ℕ → List LifeEvent → Prop} (hself : P c (s.life c ++ [e]))
    (hother : ∀ d, P d (s.life d)) (d : ℕ) : P d ((s.note c e).life d) :=
  (Function.forall_update_iff _ P).mpr ⟨hself, fun d _ => hother d⟩ d

/-- The map refers to the connection. -/
theorem strong_of_map (hmap : s.server.connections (s.names c) = some c) : s.strong c = true := by
  simp [strong, hmap]

/-- User code refers to the connection. -/
theorem strong_of_pointers (hpointers : 0 < s.pointers c) : s.strong c = true := by
  simp [strong, hpointers]

/-- A function on the stack of a loop refers to the connection. -/
theorem strong_of_frame {f : ServerFrame} (hl : l ∈ s.loops) (hf : f ∈ s.stack l) (htarget : f.target = c) :
    s.strong c = true := by
  have hany : (s.stack l).any (·.target == c) = true :=
    List.any_eq_true.mpr ⟨f, hf, beq_iff_eq.mpr htarget⟩
  refine Bool.or_eq_true_iff.mpr (.inr (List.any_eq_true.mpr ⟨l, hl, ?_⟩))
  rw [hany, Bool.true_or]

/-- A functor of a loop refers to the connection. -/
theorem strong_of_functor {f : ServerFunctor} (hl : l ∈ s.loops) (hf : f ∈ s.called l ++ s.queued l)
    (hholds : f.holds c = true) : s.strong c = true := by
  have hany : (s.called l ++ s.queued l).any (·.holds c) = true := List.any_eq_true.mpr ⟨f, hf, hholds⟩
  refine Bool.or_eq_true_iff.mpr (.inr (List.any_eq_true.mpr ⟨l, hl, ?_⟩))
  rw [hany, Bool.or_true]

namespace Records

/-- Something of a connection has happened only if it is in the records. -/
theorem inserted_of_begun (h : s.Records) (hc : s.begun c) : .inserted ∈ s.life c :=
  h.inserted c (List.ne_nil_of_mem hc)

/-- The numbers of the connections in the records have been used up. -/
theorem lt_nextConnId (h : s.Records) (hc : .inserted ∈ s.life c) : c < s.server.nextConnId := by
  refine Nat.lt_of_not_le fun hle => ?_
  rw [h.fresh c hle] at hc
  contradiction

/-- Connections have different names. -/
theorem names_injective (h : s.Records) {d : ℕ} (hc : .inserted ∈ s.life c) (hd : .inserted ∈ s.life d)
    (hname : s.names c = s.names d) : c = d := by
  rw [h.named c hc, h.named d hd] at hname
  exact TcpServer.connName_injective h.short ((h.lt_nextConnId hc).trans_le h.bound)
    ((h.lt_nextConnId hd).trans_le h.bound) hname

/-- The name of the next connection is new. -/
theorem names_ne_next (h : s.Records) {d : ℕ} (hid : s.server.nextConnId < 2 ^ 31)
    (hd : .inserted ∈ s.life d) : s.names d ≠ s.server.connName s.server.nextConnId := by
  rw [h.named d hd]
  intro hname
  have hlt := h.lt_nextConnId hd
  have heq := TcpServer.connName_injective h.short (hlt.trans hid) hid hname
  omega

/-- An event of a connection in the records leaves the lives with unused numbers empty. -/
theorem fresh_note (h : s.Records) (hinserted : .inserted ∈ s.life c) (d : ℕ)
    (hd : s.server.nextConnId ≤ d) : (s.note c e).life d = [] := by
  refine forall_life_note (P := fun d life => s.server.nextConnId ≤ d → life = []) ?_ h.fresh d hd
  exact fun hc => absurd (h.lt_nextConnId hinserted) (Nat.not_lt.mpr hc)

/-- Behind such an event, too, only connections in the records have a life. -/
theorem inserted_note (h : s.Records) (hinserted : .inserted ∈ s.life c) {d : ℕ}
    (hd : (s.note c e).life d ≠ []) : .inserted ∈ s.life d := by
  obtain ⟨a, ha⟩ := List.exists_mem_of_ne_nil _ hd
  rcases mem_note.mp ha with ha | ⟨rfl, -⟩
  · exact h.inserted d (List.ne_nil_of_mem ha)
  · exact hinserted

/-- An event of a life behind its entry, with what it does to the map. -/
theorem record (h : s.Records) {m : List Char → Option ℕ} (hinserted : .inserted ∈ s.life c)
    (hkind : e ≠ .inserted ∧ e ≠ .establishing)
    (hmap : ∀ n d, m n = some d ↔
      s.names d = n ∧ .inserted ∈ s.life d ∧ .removed ∉ s.life d ∧ ¬ (d = c ∧ e = .removed))
    (hcall : e = .handler ∨ e = .notification → s.begun c)
    (hdestroying : e = .destroying → .established ∈ s.life c)
    (hremoved : e = .removed → .connectDestroyed c ∈ s.queued (s.home c)) :
    (({ s with server := { s.server with connections := m } } : ServerSystem L).note c e).Records := by
  have hmem (a : LifeEvent) (d : ℕ) : a ∈ (s.note c e).life d ↔ a ∈ s.life d ∨ d = c ∧ a = e := mem_note
  have hins (d : ℕ) : .inserted ∈ (s.note c e).life d ↔ .inserted ∈ s.life d := by
    rw [hmem]
    exact or_iff_left fun hd => hkind.1 hd.2.symm
  have hbegun (d : ℕ) : (s.note c e).begun d ↔ s.begun d := by
    unfold begun
    rw [hmem]
    exact or_iff_left fun hd => hkind.2 hd.2.symm
  refine { h with
    fresh := h.fresh_note hinserted
    inserted := fun d hd => (hins d).mpr (h.inserted_note hinserted hd)
    named := fun d hd => h.named d ((hins d).mp hd)
    homed := fun d hd => h.homed d ((hins d).mp hd)
    map := fun n d => ?_
    once := forall_life_note (P := fun _ life => life.count .establishing ≤ 1) ?_ h.once
    announced := forall_life_note ((h.announced c).concat hcall) h.announced
    completed := forall_life_note ((h.completed c).concat hdestroying) h.completed
    frames := fun l f hf => ⟨(h.frames l f hf).1, (hbegun _).mpr (h.frames l f hf).2⟩
    waiting := fun l f hf => ?_
    ready := fun l d hd => (hmem _ d).mpr (.inl (h.ready l d hd))
    returning := fun d hd =>
      (h.returning d ((hbegun d).mp hd)).imp_left fun hd => (hmem _ d).mpr (.inl hd)
    active := fun l a ha => ⟨(h.active l a ha).1, (hbegun _).mpr (h.active l a ha).2⟩
    pointing := fun d hd => (hbegun d).mpr (h.pointing d hd)
    leaving := fun d hd => ?_ }
  · refine (hmap n d).trans (and_congr_right' (and_congr (hins d).symm ?_))
    rw [← not_or, not_iff_not]
    exact ((hmem _ d).trans (or_congr_right (and_congr_right' eq_comm))).symm
  · rw [List.count_append, List.count_singleton, if_neg (by simpa using hkind.2)]
    exact h.once c
  · obtain ⟨hl, hf, hb⟩ := h.waiting l f hf
    exact ⟨hl, (hins _).mpr hf, (hbegun _).trans hb⟩
  · rcases (hmem _ d).mp hd with hd | ⟨rfl, he⟩
    · exact (h.leaving d hd).imp_left fun hd => (hmem _ d).mpr (.inl hd)
    · exact .inr (.inl (hremoved he.symm))

/-- An event of a life that is not one of its three turning points. -/
theorem note (h : s.Records) (hinserted : .inserted ∈ s.life c)
    (hkind : e ∉ [LifeEvent.inserted, .establishing, .removed])
    (hcall : e = .handler ∨ e = .notification → s.begun c)
    (hdestroying : e = .destroying → .established ∈ s.life c) : (s.note c e).Records := by
  simp only [List.mem_cons, List.not_mem_nil, or_false, not_or] at hkind
  refine h.record (m := s.server.connections) hinserted ⟨hkind.1, hkind.2.1⟩ (fun n d => ?_) hcall
    hdestroying fun he => absurd he hkind.2.2
  rw [h.map]
  simp [hkind.2.2]

/-- The erasure of a connection whose `connectDestroyed` waits. -/
theorem unmap (h : s.Records) (hbegun : s.begun c)
    (hqueued : .connectDestroyed c ∈ s.queued (s.home c)) :
    (({ s with server := s.server.erase (s.names c) } : ServerSystem L).note c .removed).Records := by
  have hinserted := h.inserted_of_begun hbegun
  refine h.record hinserted (by decide) (fun n d => ?_) (by simp) (by simp) fun _ => hqueued
  by_cases hn : n = s.names c
  · subst hn
    rw [Function.update_self]
    refine iff_of_false (fun hd => nomatch hd) fun ⟨hname, hd, _, hne⟩ => hne ⟨?_, rfl⟩
    exact h.names_injective hd hinserted hname
  · rw [Function.update_of_ne hn, h.map]
    refine and_congr_right fun hname => and_congr_right' (and_iff_left ?_).symm
    rintro ⟨rfl, -⟩
    exact hn hname.symm

/-- Other functions on the stacks. -/
theorem restack (h : s.Records) {stack : L → List ServerFrame}
    (hnew : ∀ l, ∀ f ∈ stack l, f ∈ s.stack l ∨ s.home f.target = l ∧ s.begun f.target)
    (hestablishing : ∀ c, .connectEstablished c ∈ s.stack (s.home c) →
      .connectEstablished c ∈ stack (s.home c) ∨ .established ∈ s.life c)
    (hdestroying : ∀ c, .connectDestroyed c ∈ s.stack (s.home c) →
      .connectDestroyed c ∈ stack (s.home c) ∨ .destroyed ∈ s.life c) :
    ({ s with stack := stack } : ServerSystem L).Records := by
  refine { h with
    frames := fun l f hf => (hnew l f hf).elim (h.frames l f) id
    returning := fun c hc => ?_
    leaving := fun c hc => ?_ }
  · rcases h.returning c hc with hdone | hframe
    · exact .inl hdone
    · exact (hestablishing c hframe).symm
  · rcases h.leaving c hc with hdone | hqueued | hframe
    · exact .inl hdone
    · exact .inr (.inl hqueued)
    · exact (hdestroying c hframe).elim (fun hframe => .inr (.inr hframe)) .inl

/-- The map behind the entry of a new connection has it under its name, and the others as before. -/
theorem map_insert (h : s.Records) {connName : List Char} (hid : s.server.nextConnId < 2 ^ 31)
    (hc : c = s.server.nextConnId) (hname : connName = s.server.connName c) (n : List Char) (d : ℕ) :
    Function.update s.server.connections connName (some c) n = some d ↔
      Function.update s.names c connName d = n ∧ .inserted ∈ (s.note c .inserted).life d ∧
        .removed ∉ (s.note c .inserted).life d := by
  have hempty : s.life c = [] := h.fresh c hc.ge
  by_cases hdc : d = c
  · subst hdc
    have hself : (s.note d .inserted).life d = [.inserted] :=
      (Function.update_self _ _ _).trans (by rw [hempty]; rfl)
    rw [Function.update_self, hself]
    by_cases hn : n = connName
    · subst hn
      simp
    · rw [Function.update_of_ne hn, h.map, hempty]
      simp [Ne.symm hn]
  · have hother : (s.note c .inserted).life d = s.life d := Function.update_of_ne hdc _ _
    rw [Function.update_of_ne hdc, hother, ← h.map]
    by_cases hn : n = connName
    · subst hn
      rw [Function.update_self, Option.some.injEq]
      refine iff_of_false (Ne.symm hdc) fun hmap => ?_
      obtain ⟨hdn, hd, -⟩ := (h.map _ d).mp hmap
      rw [hname, hc] at hdn
      exact h.names_ne_next hid hd hdn
    · rw [Function.update_of_ne hn]

/-- The entry of a new connection. -/
theorem insert (h : s.Records) {ioLoop : L} {connName : List Char} {server : TcpServer L}
    (hid : s.server.nextConnId < 2 ^ 31)
    (hnew : s.server.newConnection = some (ioLoop, connName, c, server)) :
    (s.insert ioLoop connName c server).Records := by
  obtain ⟨hloop, hname, hc, pool, hserver, hbase, hpool⟩ := TcpServer.newConnection_spec hnew
  have hempty : s.life c = [] := h.fresh c hc.ge
  have hne {a : LifeEvent} {d : ℕ} (hd : a ∈ s.life d) : d ≠ c := by
    rintro rfl
    rw [hempty] at hd
    contradiction
  set t := s.insert ioLoop connName c server
  have hlife {d : ℕ} (hd : d ≠ c) : t.life d = s.life d := Function.update_of_ne hd _ _
  have hhome {d : ℕ} (hd : d ≠ c) : t.home d = s.home d := Function.update_of_ne hd _ _
  have hnames {d : ℕ} (hd : d ≠ c) : t.names d = s.names d := Function.update_of_ne hd _ _
  have hmem (a : LifeEvent) (d : ℕ) : a ∈ t.life d ↔ a ∈ s.life d ∨ d = c ∧ a = .inserted := mem_note
  have hkeep {a : LifeEvent} (ha : a ≠ .inserted) (d : ℕ) : a ∈ t.life d ↔ a ∈ s.life d :=
    (hmem a d).trans (or_iff_left fun hd => ha hd.2)
  have hconnName (d : ℕ) : t.server.connName d = s.server.connName d := by
    change server.connName d = _
    rw [hserver]
    rfl
  have hloops : t.loops = s.loops := by
    change server.loop :: server.threadPool.loops = s.loops
    rw [hserver, hpool]
    rfl
  have hbegun (d : ℕ) : t.begun d ↔ s.begun d := hkeep (by decide) d
  refine { h with
    short := ?_
    baseloop := ?_
    bound := ?_
    fresh := fun d hd => ?_
    inserted := fun d hd => (hmem _ d).mpr ?_
    named := fun d hd => ?_
    homed := fun d hd => ?_
    map := fun n d => ?_
    once := forall_life_note (P := fun _ life => life.count .establishing ≤ 1) ?_ h.once
    announced := forall_life_note ((h.announced c).concat (by simp)) h.announced
    completed := forall_life_note ((h.completed c).concat (by simp)) h.completed
    frames := fun l f hf => ?_
    waiting := fun l f hf => ?_
    ready := fun l d hd => (hkeep (by decide) d).mpr (h.ready l d hd)
    returning := fun d hd => ?_
    active := fun l a ha => ?_
    pointing := fun d hd => (hbegun d).mpr (h.pointing d hd)
    leaving := fun d hd => ?_ }
  · change server.ipPort.length ≤ 15
    rw [hserver]
    exact h.short
  · change server.threadPool.baseloop = server.loop
    rw [hserver]
    exact hbase.trans h.baseloop
  · change server.nextConnId ≤ 2 ^ 31
    rw [hserver, hc]
    exact Nat.succ_le_of_lt hid
  · change server.nextConnId ≤ d at hd
    rw [hserver] at hd
    have hle : s.server.nextConnId ≤ d := hc ▸ Nat.le_of_succ_le hd
    exact (hlife (Nat.ne_of_gt hd)).trans (h.fresh d hle)
  · by_cases hdc : d = c
    · exact .inr ⟨hdc, rfl⟩
    · exact .inl (h.inserted d (hlife hdc ▸ hd))
  · rw [hconnName]
    rcases (hmem _ d).mp hd with hd | ⟨rfl, -⟩
    · exact (hnames (hne hd)).trans (h.named d hd)
    · exact (Function.update_self _ _ _).trans hname
  · rw [hloops]
    rcases (hmem _ d).mp hd with hd | ⟨rfl, -⟩
    · exact hhome (hne hd) ▸ h.homed d hd
    · rw [show t.home d = ioLoop from Function.update_self _ _ _]
      rcases hloop with rfl | hmem
      · exact h.baseloop ▸ List.mem_cons_self
      · exact List.mem_cons_of_mem _ hmem
  · have hconnections : t.server.connections =
        Function.update s.server.connections connName (some c) := by
      change server.connections = _
      rw [hserver]
    rw [hconnections]
    exact h.map_insert hid hc hname n d
  · rw [hempty]
    decide
  · obtain ⟨hl, hf⟩ := h.frames l f hf
    exact ⟨(hhome (hne hf)).trans hl, (hbegun _).mpr hf⟩
  · obtain ⟨hl, hf, hb⟩ := h.waiting l f hf
    refine ⟨Eq.trans ?_ hl, (hmem _ _).mpr (.inl hf), (hbegun _).trans hb⟩
    cases f with
    | removeConnectionInLoop =>
      change server.loop = s.server.loop
      rw [hserver]
    | connectEstablished | connectDestroyed | callback | sendInLoop | shutdownInLoop =>
      exact hhome (hne hf)
  · have hd := (hbegun d).mp hd
    rw [hhome (hne hd)]
    exact (h.returning d hd).imp_left fun hd => (hmem _ d).mpr (.inl hd)
  · obtain ⟨hl, ha⟩ := h.active l a ha
    exact ⟨(hhome (hne ha)).trans hl, (hbegun _).mpr ha⟩
  · have hd := (hkeep (by decide) d).mp hd
    rw [hhome (hne hd)]
    exact (h.leaving d hd).imp_left fun hd => (hmem _ d).mpr (.inl hd)

end Records

variable [DecidableEq L]

/-- What queueing a functor adds. -/
theorem mem_queueInLoop {f g : ServerFunctor} {l' : L} :
    g ∈ (s.queueInLoop l f).queued l' ↔ g ∈ s.queued l' ∨ l' = l ∧ g = f := by
  unfold queueInLoop queued
  by_cases hl : l' = l
  · subst hl
    simp [or_assoc]
  · simp [hl]

/-- A functor is queued behind the others. -/
theorem queued_queueInLoop_self (s : ServerSystem L) (l : L) (f : ServerFunctor) :
    (s.queueInLoop l f).queued l = s.queued l ++ [f] := by
  simp [queueInLoop, queued]

/-- The other loops do not see it. -/
theorem queued_queueInLoop_of_ne {l' : L} (hl : l' ≠ l) (f : ServerFunctor) :
    (s.queueInLoop l f).queued l' = s.queued l' := by
  simp [queueInLoop, queued, hl]

/-- What pushing a function adds. -/
theorem mem_push {f g : ServerFrame} {l' : L} :
    g ∈ (s.push l f).stack l' ↔ g ∈ s.stack l' ∨ l' = l ∧ g = f := by
  unfold push
  by_cases hl : l' = l
  · subst hl
    simp [or_comm]
  · simp [hl]

/-- Leaving a function removes the head of one stack. -/
theorem stack_popFrame_of_ne {l' : L} (hl : l' ≠ l) : (s.popFrame l).stack l' = s.stack l' := by
  simp [popFrame, hl]

theorem stack_popFrame_self (s : ServerSystem L) (l : L) :
    (s.popFrame l).stack l = (s.stack l).tail := by
  simp [popFrame]

/-- Leaving a function adds none. -/
theorem mem_of_mem_popFrame {l' : L} {f : ServerFrame} (hf : f ∈ (s.popFrame l).stack l') :
    f ∈ s.stack l' := by
  by_cases hl : l' = l
  · subst hl
    exact List.mem_of_mem_tail (stack_popFrame_self s l' ▸ hf)
  · exact stack_popFrame_of_ne hl ▸ hf

/-- Leaving a function removes no other. -/
theorem mem_popFrame_or_eq {l' : L} {f g : ServerFrame} (hhead : (s.stack l).head? = some f)
    (hg : g ∈ s.stack l') : g ∈ (s.popFrame l).stack l' ∨ g = f := by
  obtain ⟨rest, hstack⟩ := List.head?_eq_some_iff.mp hhead
  by_cases hl : l' = l
  · subst hl
    rw [stack_popFrame_self]
    rw [hstack] at hg ⊢
    exact (List.mem_cons.mp hg).symm
  · rw [stack_popFrame_of_ne hl]
    exact .inl hg

namespace Records

/-- A function comes to user code. -/
theorem push (h : s.Records) {f : ServerFrame} (hhome : s.home f.target = l) (hbegun : s.begun f.target) :
    (s.push l f).Records :=
  h.restack (fun _ _ hg => (mem_push.mp hg).imp_right fun ⟨hl, hg⟩ => hl ▸ hg ▸ ⟨hhome, hbegun⟩)
    (fun _ hc => .inl (mem_push.mpr (.inl hc))) fun _ hc => .inl (mem_push.mpr (.inl hc))

/-- A function is left: `connectEstablished` and `connectDestroyed` when they are done. -/
theorem popFrame (h : s.Records) {f : ServerFrame} (hhead : (s.stack l).head? = some f)
    (hestablished : ∀ c, f = .connectEstablished c → .established ∈ s.life c)
    (hdestroyed : ∀ c, f = .connectDestroyed c → .destroyed ∈ s.life c) : (s.popFrame l).Records := by
  refine h.restack (fun l' g hg => .inl (mem_of_mem_popFrame hg)) (fun c hc => ?_) fun c hc => ?_
  · exact (mem_popFrame_or_eq hhead hc).imp_right fun hf => hestablished c hf.symm
  · exact (mem_popFrame_or_eq hhead hc).imp_right fun hf => hdestroyed c hf.symm

/-- A functor is queued. -/
theorem queueInLoop (h : s.Records) {f : ServerFunctor} (hloop : s.loopOf f = l)
    (hinserted : .inserted ∈ s.life f.target) (hbegun : s.begun f.target ↔ f.begins = false)
    (honce : f.begins = true → f ∉ s.queued l) : (s.queueInLoop l f).Records := by
  refine { h with
    waiting := fun l' g hg => ?_
    single := fun l' c => ?_
    leaving := fun c hc => ?_ }
  · rcases mem_queueInLoop.mp hg with hg | ⟨rfl, rfl⟩
    · exact h.waiting l' g hg
    · exact ⟨hloop, hinserted, hbegun⟩
  · by_cases hl : l' = l
    · subst hl
      rw [queued_queueInLoop_self, List.count_append, List.count_singleton]
      split
      · rename_i heq
        obtain rfl := eq_of_beq heq
        rw [List.count_eq_zero.mpr (honce rfl)]
      · exact h.single l' c
    · rw [queued_queueInLoop_of_ne hl]
      exact h.single l' c
  · exact (h.leaving c hc).imp_right (Or.imp_left fun hq => mem_queueInLoop.mpr (.inl hq))

/-- `removeConnectionInLoop`. -/
theorem removeConnectionInLoop (h : s.Records) (hbegun : s.begun c) :
    (s.removeConnectionInLoop c).Records := by
  have hqueued : (s.queueInLoop (s.home c) (.connectDestroyed c)).Records :=
    h.queueInLoop rfl (h.inserted_of_begun hbegun) (iff_of_true hbegun rfl) fun hf => nomatch hf
  exact hqueued.unmap hbegun (mem_queueInLoop.mpr (.inr ⟨rfl, rfl⟩))

/-- `removeConnection`. -/
theorem removeConnection (h : s.Records) (hbegun : s.begun c) : (s.removeConnection c).Records := by
  unfold ServerSystem.removeConnection
  split
  · exact h.removeConnectionInLoop hbegun
  · exact h.queueInLoop rfl (h.inserted_of_begun hbegun) (iff_of_true hbegun rfl) fun hf => nomatch hf

/-- The beginning of `connectEstablished`. -/
theorem establishing (h : s.Records) (hinserted : .inserted ∈ s.life c) (hbegun : ¬ s.begun c)
    (hqueued : ∀ l, .connectEstablished c ∉ s.queued l) : (s.establishing c).Records := by
  have hmem (a : LifeEvent) (d : ℕ) :
      a ∈ (s.note c .establishing).life d ↔ a ∈ s.life d ∨ d = c ∧ a = .establishing := mem_note
  have hkeep {a : LifeEvent} (ha : a ≠ .establishing) (d : ℕ) :
      a ∈ (s.note c .establishing).life d ↔ a ∈ s.life d :=
    (hmem a d).trans (or_iff_left fun hd => ha hd.2)
  have hbegins (d : ℕ) (hd : s.begun d) : (s.establishing c).begun d := (hmem _ d).mpr (.inl hd)
  refine { h with
    fresh := h.fresh_note hinserted
    inserted := fun d hd => (hkeep (by decide) d).mpr (h.inserted_note hinserted hd)
    named := fun d hd => h.named d ((hkeep (by decide) d).mp hd)
    homed := fun d hd => h.homed d ((hkeep (by decide) d).mp hd)
    map := fun n d => ?_
    once := forall_life_note (P := fun _ life => life.count .establishing ≤ 1) ?_ h.once
    announced := forall_life_note ((h.announced c).concat (by simp)) h.announced
    completed := forall_life_note ((h.completed c).concat (by simp)) h.completed
    frames := fun l f hf => ?_
    waiting := fun l f hf => ?_
    ready := fun l d hd => (hmem _ d).mpr (.inl (h.ready l d hd))
    returning := fun d hd => ?_
    active := fun l a ha => ⟨(h.active l a ha).1, hbegins _ (h.active l a ha).2⟩
    pointing := fun d hd => hbegins d (h.pointing d hd)
    leaving := fun d hd => ?_ }
  · refine (h.map n d).trans (and_congr_right' (and_congr ?_ (not_congr ?_)))
    · exact (hkeep (by decide) d).symm
    · exact (hkeep (by decide) d).symm
  · rw [List.count_append, List.count_eq_zero.mpr hbegun]
    rfl
  · rcases mem_push.mp hf with hf | ⟨rfl, rfl⟩
    · exact ⟨(h.frames l f hf).1, hbegins _ (h.frames l f hf).2⟩
    · exact ⟨rfl, (hmem _ c).mpr (.inr ⟨rfl, rfl⟩)⟩
  · obtain ⟨hl, hf', hb⟩ := h.waiting l f hf
    -- the functor that would establish the connection is gone
    have hne : f.target ≠ c := by
      rintro rfl
      cases f with
      | connectEstablished => exact hqueued l hf
      | removeConnectionInLoop | connectDestroyed | callback | sendInLoop | shutdownInLoop =>
        exact hbegun (hb.mpr rfl)
    refine ⟨hl, (hkeep (by decide) _).mpr hf', Iff.trans ?_ hb⟩
    exact (hmem _ _).trans (or_iff_left fun hd => hne hd.1)
  · rcases (hmem _ d).mp hd with hd | ⟨rfl, -⟩
    · exact (h.returning d hd).imp (fun hd => (hmem _ d).mpr (.inl hd))
        fun hd => mem_push.mpr (.inl hd)
    · exact .inr (mem_push.mpr (.inr ⟨rfl, rfl⟩))
  · refine (h.leaving d ((hkeep (by decide) d).mp hd)).imp (fun hd => (hmem _ d).mpr (.inl hd)) ?_
    exact Or.imp_right fun hd => mem_push.mpr (.inl hd)

end Records

end ServerSystem

end CcMuduo
